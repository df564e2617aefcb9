import EcmaEval.Store.Heap
import EcmaEval.Text.IdentifierTable
import EcmaEval.Text.Quoted

/-!
# Inspection

The text of a value as it is shown to a user: strings in quotes, the elements of arrays and the
listed properties of objects.  Where an object contains itself, the inner occurrence is written as
`[Circular]`.

## Main definitions

* `Inspect.textWithin`: the text of a value inside some objects
* `Heap.inspect`: the text of a value, with strings in quotes
* `Heap.show`: the text of a value, where a string stands for itself
-/

namespace EcmaEval.Inspect

/-- A list of texts between two marks. -/
def enclose (opening closing : String) (parts : List String) : String :=
  opening ++ " " ++ ", ".intercalate parts ++ " " ++ closing

/-- The character may begin a name. -/
def isNameStart (c : Char) : Bool :=
  Text.isIdentifierStart c || c == '_' || c == '$'

/-- The key can be written without quotes: digits only, or a name. -/
def isPlainKey (key : String) : Bool :=
  let cs := key.toList
  !cs.isEmpty &&
    (cs.all Number.isDecimalDigit ||
      (cs.head?.any isNameStart && cs.all fun c => Text.isIdentifierContinue c || c == '$'))

/-- The text of a key. -/
def keyText (key : String) : String :=
  if isPlainKey key then key else Text.quote key

/-- The text of a class. -/
def classText (h : Heap) (definition : ClassDefinition) : String :=
  let name := if definition.name.isEmpty then "(anonymous)" else definition.name
  let parent := (definition.parent.map fun p => (h.get p).ownText "name").getD ""
  if parent.isEmpty then "[class " ++ name ++ "]"
  else "[class " ++ name ++ " extends " ++ parent ++ "]"

/-- The text of a function that is no class. -/
def functionText (o : Object) : String :=
  let name := o.ownText "name"
  if name.isEmpty then "[Function (anonymous)]" else "[Function: " ++ name ++ "]"

/-- A name and a message, with a colon between them unless one is empty. -/
def titled (name message : String) : String :=
  if message.isEmpty then name
  else if name.isEmpty then message
  else name ++ ": " ++ message

/-- The text of an error. -/
def errorText (h : Heap) (id : ObjectId) : String :=
  let name :=
    match (h.find? id "name").bind Property.value? with
    | some (.string s) => s.text
    | _ => "Error"
  titled name ((h.get id).ownText "message")

/-- The name of the constructor of an object, unless it is a plain object. -/
def constructorName? (h : Heap) (o : Object) : Option String := do
  let prototype ← o.prototype
  let constructor ← (h.get prototype).ownValue? "constructor"
  let name := (h.get (← constructor.object?)).ownText "name"
  if name.isEmpty || name = "Object" then none else some name

/-- The text of an ordinary object, from the texts of its properties. -/
def recordText (constructor : Option String) (parts : List String) : String :=
  let front := (constructor.map (· ++ " ")).getD ""
  if parts.isEmpty then front ++ "\x7b\x7d" else front ++ enclose "\x7b" "\x7d" parts

/-- The text of a property, from that of its value. -/
def propertyText (text : Value → String) : Property → String
  | .accessor (some _) (some _) _ => "[Getter/Setter]"
  | .accessor (some _) none _ => "[Getter]"
  | .accessor none (some _) _ => "[Setter]"
  | .accessor none none _ => text .undefined
  | .data value _ _ => text value

/-- The text of an object, from the texts of the values in it. -/
def objectText (h : Heap) (text : Value → String) (id : ObjectId) : String :=
  let o := h.get id
  match o.kind with
  | .function (.class definition) => classText h definition
  | .function _ => functionText o
  | .error => errorText h id
  | .promise (.pending ..) => "Promise \x7b <pending> \x7d"
  | .promise (.settled (.fulfilled v)) => "Promise \x7b " ++ text v ++ " \x7d"
  | .promise (.settled (.rejected v)) => "Promise \x7b <rejected> " ++ text v ++ " \x7d"
  | .array elements =>
    if elements.isEmpty then "[]" else enclose "[" "]" (elements.toList.map text)
  | .ordinary =>
    recordText (constructorName? h o) <|
      (o.ownKeys true).filterMap fun key =>
        (o.getOwn? key).map fun property => keyText key ++ ": " ++ propertyText text property

/-- The text of a primitive value. -/
def primitiveText : Value → String
  | .string s => Text.quote s.text
  | .number x => Number.toSignedText x
  | .bigint n => Integer.toText n ++ "n"
  | v => v.primitiveText

/-- The text of a value inside the objects of `path`.  Every step adds an object to the path, so it
takes no more steps than there are objects. -/
def textWithin (h : Heap) : (fuel : Nat) → (path : List ObjectId) → Value → String
  | 0, _, _ => "[Circular]"
  | fuel + 1, path, .object id =>
    if path.contains id then "[Circular]"
    else objectText h (textWithin h fuel (id :: path)) id
  | _, _, v => primitiveText v

end Inspect

/-- The text of a value as it is shown to a user. -/
def Heap.inspect (h : Heap) (v : Value) : String := Inspect.textWithin h (h.size + 1) [] v

/-- The text of a value in a line of text, where a string stands without quotes. -/
def Heap.show (h : Heap) (v : Value) : String :=
  match v with
  | .string s => s.text
  | v => h.inspect v

end EcmaEval
