import EcmaEval.Value.Basic

/-!
# Properties

What an object holds under a key: a value, or a pair of functions that stand for one.
-/

namespace EcmaEval

/-- A property. -/
inductive Property where
  /-- A value. -/
  | data (value : Value) (writable enumerable : Bool)
  /-- Functions that read and write a value. -/
  | accessor (getter setter : Option Value) (enumerable : Bool)
  deriving Inhabited

namespace Property

/-- A value that may be written and is listed. -/
def plain (value : Value) : Property := .data value true true

/-- A value that may be written and is not listed. -/
def hidden (value : Value) : Property := .data value true false

/-- A value that may not be written and is not listed. -/
def fixed (value : Value) : Property := .data value false false

/-- The property is listed with the others. -/
def enumerable : Property → Bool
  | data _ _ e => e
  | accessor _ _ e => e

/-- The property may be written as a value. -/
def writable : Property → Bool
  | data _ w _ => w
  | accessor .. => false

/-- The value that the property holds. -/
def value? : Property → Option Value
  | data v _ _ => some v
  | accessor .. => none

/-- The function that reads the property. -/
def getter? : Property → Option Value
  | data .. => none
  | accessor g _ _ => g

/-- The function that writes the property. -/
def setter? : Property → Option Value
  | data .. => none
  | accessor _ s _ => s

/-- A function reads or writes the property.  An accessor without functions counts as a value that
is missing and may not be written. -/
def isAccessor (p : Property) : Bool :=
  p.getter?.isSome || p.setter?.isSome

/-- The property with another value, if it may be written. -/
def write (p : Property) (value : Value) : Property :=
  match p with
  | data _ true e => data value true e
  | p => p

end Property

end EcmaEval
