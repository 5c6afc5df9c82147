import BorrowFlow.Signature.Basic

/-!
# The built-in operations
-/

namespace BorrowFlow

namespace Parameter

def taking (name : String) (type : DeclaredType) : Parameter :=
  { name, direction := .input, type }

def giving (name : String) (type : DeclaredType) : Parameter :=
  { name, direction := .output, type }

/-- An output that hands back what the given input parameter took. -/
def handingBack (name : String) (type : DeclaredType) (input : Nat) : Parameter :=
  { name, direction := .output, type, pairsWith := some input }

end Parameter

namespace Signature

open Parameter DeclaredType

def immutablePassthrough : Signature where
  name := "ImmutablePassthrough"
  generics := [{ name := "T" }]
  parameters :=
    [taking "in" (reference .immutable 0 (generic 0)),
      handingBack "out" (reference .immutable 0 (generic 0)) 0]

def mutablePassthrough : Signature where
  name := "MutablePassthrough"
  generics := [{ name := "T" }]
  parameters :=
    [taking "in" (reference .mutable 0 (generic 0)),
      handingBack "out" (reference .mutable 0 (generic 0)) 0]

def output : Signature where
  name := "Output"
  generics := [{ name := "T", constraints := [.display] }]
  parameters := [taking "value" (reference .immutable 0 (generic 0))]

def assign : Signature where
  name := "Assign"
  generics := [{ name := "T" }]
  parameters :=
    [taking "target" (reference .mutable 0 (generic 0)),
      taking "value" (generic 0),
      handingBack "target out" (reference .mutable 0 (generic 0)) 0]

def exchangeValues : Signature where
  name := "ExchangeValues"
  generics := [{ name := "T" }]
  parameters :=
    [taking "first" (reference .mutable 0 (generic 0)),
      taking "second" (reference .mutable 0 (generic 0)),
      handingBack "first out" (reference .mutable 0 (generic 0)) 0,
      handingBack "second out" (reference .mutable 0 (generic 0)) 1]

def createCopy : Signature where
  name := "CreateCopy"
  generics := [{ name := "T", constraints := [.copy] }]
  parameters :=
    [taking "original" (reference .immutable 0 (generic 0)),
      handingBack "original out" (reference .immutable 0 (generic 0)) 0,
      giving "copy" (generic 0)]

def add : Signature where
  name := "Add"
  parameters :=
    [taking "x" (reference .immutable 0 (concrete .int32)),
      taking "y" (reference .immutable 0 (concrete .int32)),
      handingBack "x out" (reference .immutable 0 (concrete .int32)) 0,
      handingBack "y out" (reference .immutable 0 (concrete .int32)) 1,
      giving "sum" (concrete .int32)]

def increment : Signature where
  name := "Increment"
  parameters :=
    [taking "value" (reference .mutable 0 (concrete .int32)),
      handingBack "value out" (reference .mutable 0 (concrete .int32)) 0]

def vectorCreate : Signature where
  name := "VectorCreate"
  generics := [{ name := "T" }]
  parameters :=
    [taking "element" (generic 0),
      giving "vector" (constructed .vector (generic 0))]

def vectorAppend : Signature where
  name := "VectorAppend"
  generics := [{ name := "T" }]
  parameters :=
    [taking "vector" (reference .mutable 0 (constructed .vector (generic 0))),
      taking "element" (generic 0),
      handingBack "vector out" (reference .mutable 0 (constructed .vector (generic 0))) 0]

def someConstructor : Signature where
  name := "SomeConstructor"
  generics := [{ name := "T" }]
  parameters :=
    [taking "value" (generic 0),
      giving "option" (constructed .option (generic 0))]

def range : Signature where
  name := "Range"
  parameters :=
    [taking "low" (concrete .int32),
      taking "high" (concrete .int32),
      giving "range" (concrete (.constructed .iterator .int32))]

def createLockingCell : Signature where
  name := "CreateLockingCell"
  generics := [{ name := "T" }]
  parameters :=
    [taking "value" (generic 0),
      giving "cell" (constructed .lockingCell (generic 0))]

def createNonLockingCell : Signature where
  name := "CreateNonLockingCell"
  generics := [{ name := "T" }]
  parameters :=
    [taking "value" (generic 0),
      giving "cell" (constructed .nonLockingCell (generic 0))]

/-- Chooses between two references that share a lifetime. The result is mutable only if both choices
are. -/
def selectReference : Signature where
  name := "SelectReference"
  generics := [{ name := "T" }]
  parameters :=
    [taking "selector" (reference .immutable 0 (concrete .bool)),
      taking "true value" (reference .polymorphic 1 (generic 0)),
      taking "false value" (reference .polymorphic 1 (generic 0)),
      giving "result" (reference .polymorphic 1 (generic 0))]

def builtins : List Signature :=
  [immutablePassthrough, mutablePassthrough, output, assign, exchangeValues, createCopy, add,
    increment, vectorCreate, vectorAppend, someConstructor, range, createLockingCell,
    createNonLockingCell, selectReference]

def builtin? (name : String) : Option Signature :=
  builtins.find? fun signature => signature.name = name

end Signature

end BorrowFlow
