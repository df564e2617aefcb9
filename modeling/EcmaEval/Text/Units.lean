/-!
# Strings of code units

The string values of the evaluated language are sequences of 16-bit code units.  Lengths,
indices and comparison count units, so a character outside the basic plane counts twice and half
of it may stand alone.  `UnitString.ofString` writes a text as units, `UnitString.text` reads
units as a text and puts the replacement character where a surrogate stands alone.

## Main definitions

* `UnitString`: a string of code units
* `UnitString.ofString`, `UnitString.text`: a text as units, and units as a text
* `UnitString.indexOf?`: the first place where a string occurs
-/

namespace EcmaEval

/-- A sequence of 16-bit code units. -/
structure UnitString where
  /-- The code units in order. -/
  units : Array UInt16
  deriving DecidableEq, Inhabited

namespace UnitString

/-- The code units of one character: one, or a high and a low surrogate. -/
def unitsOfChar (c : Char) : List UInt16 :=
  let n := c.toNat
  if n < 0x10000 then
    [n.toUInt16]
  else
    [(0xD800 + (n - 0x10000) / 0x400).toUInt16, (0xDC00 + (n - 0x10000) % 0x400).toUInt16]

/-- The code units of a list of characters. -/
def ofChars (cs : List Char) : UnitString :=
  ⟨cs.foldl (fun units c => units ++ unitsOfChar c) #[]⟩

/-- The code units of a text. -/
def ofString (s : String) : UnitString :=
  ofChars s.toList

/-- The string without units. -/
def empty : UnitString := ⟨#[]⟩

instance : EmptyCollection UnitString := ⟨empty⟩

/-- The number of code units. -/
def size (s : UnitString) : Nat := s.units.size

/-- The string has no unit. -/
def isEmpty (s : UnitString) : Bool := s.units.isEmpty

/-- One string after the other. -/
protected def append (s t : UnitString) : UnitString := ⟨s.units ++ t.units⟩

instance : Append UnitString := ⟨UnitString.append⟩

/-- The first half of a pair. -/
def isHighSurrogate (u : UInt16) : Bool := 0xD800 ≤ u.toNat && u.toNat < 0xDC00

/-- The second half of a pair. -/
def isLowSurrogate (u : UInt16) : Bool := 0xDC00 ≤ u.toNat && u.toNat < 0xE000

/-- The character that a pair of surrogates stands for. -/
def ofSurrogates (high low : UInt16) : Char :=
  Char.ofNat (0x10000 + (high.toNat - 0xD800) * 0x400 + (low.toNat - 0xDC00))

/-- The character written where a unit has no reading. -/
def replacement : Char := Char.ofNat 0xFFFD

/-- Reads units into `seen`; a surrogate that stands alone becomes the replacement character. -/
def decodeOnto (seen : String) : List UInt16 → String
  | [] => seen
  | [u] =>
    seen.push (if isHighSurrogate u || isLowSurrogate u then replacement else Char.ofNat u.toNat)
  | u :: v :: rest =>
    if isHighSurrogate u && isLowSurrogate v then
      decodeOnto (seen.push (ofSurrogates u v)) rest
    else if isHighSurrogate u || isLowSurrogate u then
      decodeOnto (seen.push replacement) (v :: rest)
    else
      decodeOnto (seen.push (Char.ofNat u.toNat)) (v :: rest)

/-- The text of a string, with the replacement character for every surrogate that stands
alone. -/
def text (s : UnitString) : String :=
  decodeOnto "" s.units.toList

/-- The units from index `start` up to index `stop`, both cut to the length. -/
def slice (s : UnitString) (start stop : Nat) : UnitString :=
  ⟨s.units.extract start stop⟩

/-- The string that holds the unit at index `i` alone. -/
def unitAt (s : UnitString) (i : Nat) : UnitString :=
  s.slice i (i + 1)

/-- The units of `t` stand in `s` from index `i` on. -/
def occursAt (s t : UnitString) (i : Nat) : Bool :=
  s.slice i (i + t.size) == t

/-- The first of the `count` indices from `i` on at which `t` occurs in `s`. -/
def findFrom (s t : UnitString) : (count i : Nat) → Option Nat
  | 0, _ => none
  | count + 1, i => if s.occursAt t i then some i else findFrom s t count (i + 1)

/-- The first index from `start` on at which `t` occurs in `s`. -/
def indexOf? (s t : UnitString) (start : Nat) : Option Nat :=
  findFrom s t (s.size + 1 - t.size - start) start

/-- The last index up to `start` at which `t` occurs in `s`. -/
def lastIndexOf? (s t : UnitString) : (start : Nat) → Option Nat
  | 0 => if s.occursAt t 0 then some 0 else none
  | start + 1 => if s.occursAt t (start + 1) then some (start + 1) else lastIndexOf? s t start

/-- The string begins with `t`. -/
def startsWith (s t : UnitString) : Bool :=
  s.occursAt t 0

/-- The string ends with `t`. -/
def endsWith (s t : UnitString) : Bool :=
  t.size ≤ s.size && s.occursAt t (s.size - t.size)

/-- Lists of units by the first unit in which they differ; a list precedes its extensions. -/
def compareUnits : List UInt16 → List UInt16 → Ordering
  | [], [] => .eq
  | [], _ :: _ => .lt
  | _ :: _, [] => .gt
  | u :: us, v :: vs => if u < v then .lt else if v < u then .gt else compareUnits us vs

/-- The order of strings: by code units, from the front. -/
protected def compare (s t : UnitString) : Ordering :=
  compareUnits s.units.toList t.units.toList

/-- `count` copies one after the other. -/
def replicate (s : UnitString) (count : Nat) : UnitString :=
  ⟨count.fold (fun _ _ units => units ++ s.units) #[]⟩

/-- The first `count` units of `s ++ s ++ ⋯`; no unit when `s` has none. -/
def cycle (s : UnitString) (count : Nat) : UnitString :=
  if s.size = 0 then ∅ else (s.replicate (count / s.size + 1)).slice 0 count

/-- The string without the units of a class at its front. -/
def dropFront (blank : UInt16 → Bool) (s : UnitString) : UnitString :=
  ⟨(s.units.toList.dropWhile blank).toArray⟩

/-- The string without the units of a class at its end. -/
def dropBack (blank : UInt16 → Bool) (s : UnitString) : UnitString :=
  ⟨s.units.popWhile blank⟩

end UnitString

end EcmaEval
