import EcmaEval.Inspect
import EcmaEval.Proofs.Conduct.Ancestry
import EcmaEval.Proofs.Suite.Trace

/-!
# Pictures of values

Objects may contain each other, and themselves.  The text of a value is that of a finite tree all
the same, in which an object occurs as often as a walk from the value comes to it.  An occurrence
inside another one of the same object is a leaf; any other one has all that is written of the object,
so that an object which is met twice side by side is written twice.

There is one such tree for each value.  The walk ends, because the objects that it is inside are
different ones and all in the heap; the walk along the prototypes of an error, which looks for its
name, ends if the heap is grounded.

## Main definitions

* `Inspect.pieces`: what is written of an object
* `Inspect.Picture`: trees of occurrences
* `Inspect.Shows`: the picture is cut at the objects that it is inside, and nowhere else
* `Heap.Inherits`: a walk along prototypes

## Main results

* `Inspect.Shows.unique`, `Inspect.exists_shows`: each value has one picture
* `Heap.inspect_eq_written`: a value is inspected as its picture
-/

namespace EcmaEval

namespace Inspect

/-! ## What is written of an object -/

/-- A part of what is written of an object. -/
inductive Piece where
  | text (s : String)
  | value (v : Value)

/-- Pieces with the texts of the values in their places. -/
def fill (text : Value → String) : List Piece → String
  | [] => ""
  | .text s :: rest => s ++ fill text rest
  | .value v :: rest => text v ++ fill text rest

/-- What is written of a property behind its key. -/
def propertyPiece : Property → Piece
  | .accessor (some _) (some _) _ => .text "[Getter/Setter]"
  | .accessor (some _) none _ => .text "[Getter]"
  | .accessor none (some _) _ => .text "[Setter]"
  | .accessor none none _ => .value .undefined
  | .data value _ _ => .value value

/-- Lists of pieces between two marks, with commas between them. -/
def enclosed (opening closing : String) (parts : List (List Piece)) : List Piece :=
  .text (opening ++ " ") :: [.text ", "].intercalate parts ++ [.text (" " ++ closing)]

/-- The pieces of an ordinary object, from those of its properties. -/
def recordPieces (constructor : Option String) (parts : List (List Piece)) : List Piece :=
  let front := (constructor.map (· ++ " ")).getD ""
  if parts.isEmpty then [.text (front ++ "\x7b\x7d")]
  else .text front :: enclosed "\x7b" "\x7d" parts

/-- What is written of an object: its own texts, and the values in it. -/
def pieces (h : Heap) (id : ObjectId) : List Piece :=
  let o := h.get id
  match o.kind with
  | .function (.class definition) => [.text (classText h definition)]
  | .function _ => [.text (functionText o)]
  | .error => [.text (errorText h id)]
  | .promise (.pending ..) => [.text "Promise \x7b <pending> \x7d"]
  | .promise (.settled (.fulfilled v)) => [.text "Promise \x7b ", .value v, .text " \x7d"]
  | .promise (.settled (.rejected v)) =>
    [.text "Promise \x7b <rejected> ", .value v, .text " \x7d"]
  | .array elements =>
    if elements.isEmpty then [.text "[]"]
    else enclosed "[" "]" (elements.toList.map fun v => [.value v])
  | .ordinary =>
    recordPieces (constructorName? h o) <|
      (o.ownKeys true).filterMap fun key =>
        (o.getOwn? key).map fun property => [.text (keyText key ++ ": "), propertyPiece property]

section Fill

variable {h : Heap} {text : Value → String}

theorem fill_append (ps qs : List Piece) : fill text (ps ++ qs) = fill text ps ++ fill text qs := by
  induction ps with
  | nil => simp [fill]
  | cons p ps ih => cases p <;> simp [fill, ih, String.append_assoc]

theorem fill_intercalate (parts : List (List Piece)) :
    fill text ([.text ", "].intercalate parts) = ", ".intercalate (parts.map (fill text)) := by
  match parts with
  | [] => rfl
  | [ps] => simp
  | ps :: qs :: rest =>
    have ih := fill_intercalate (qs :: rest)
    rw [List.map_cons] at ih
    rw [List.intercalate_cons_cons, fill_append, fill_append, ih, List.map_cons, List.map_cons,
      String.intercalate_cons_cons]
    simp [fill]

theorem fill_enclosed (opening closing : String) (parts : List (List Piece)) :
    fill text (enclosed opening closing parts) =
      enclose opening closing (parts.map (fill text)) := by
  rw [enclosed, List.cons_append, fill, fill_append, fill_intercalate, enclose]
  simp [fill, String.append_assoc]

theorem fill_propertyPiece (property : Property) :
    fill text [propertyPiece property] = propertyText text property := by
  unfold propertyPiece propertyText
  split <;> simp [fill]

theorem fill_recordPieces (constructor : Option String) (parts : List (List Piece)) :
    fill text (recordPieces constructor parts) =
      recordText constructor (parts.map (fill text)) := by
  cases parts with
  | nil => simp [recordPieces, recordText, fill]
  | cons ps rest =>
    change _ ++ fill text (enclosed _ _ (ps :: rest)) = _ ++ _
    rw [fill_enclosed]

/-- The text of an object is that of its pieces. -/
theorem objectText_eq_fill (id : ObjectId) : objectText h text id = fill text (pieces h id) := by
  unfold objectText pieces
  dsimp only
  generalize (h.get id).kind = kind
  cases kind with
  | ordinary =>
    dsimp only
    rw [fill_recordPieces, List.map_filterMap]
    refine congrArg (recordText _) (List.filterMap_congr fun key _ => ?_)
    rw [Option.map_map]
    refine congrArg (Option.map · _) (funext fun property => ?_)
    rw [Function.comp_apply, fill, fill_propertyPiece]
  | array elements =>
    dsimp only
    split
    · rfl
    · rw [fill_enclosed, List.map_map]
      refine congrArg (enclose _ _) (List.map_congr_left fun v _ => ?_)
      simp [fill]
  | function body => cases body <;> simp [fill]
  | error => simp [fill]
  | promise state =>
    match state with
    | .pending .. => rfl
    | .settled (.fulfilled v) | .settled (.rejected v) => simp [fill, String.append_assoc]

end Fill

/-! ## Trees of occurrences -/

/-- What a walk through a value comes to: texts of objects, primitive values, objects that it is cut
at, and objects with all that is written of them. -/
inductive Picture where
  | text (s : String)
  | primitive (v : Value)
  | circular (id : ObjectId)
  | object (id : ObjectId) (parts : List Picture)
  deriving Inhabited

namespace Picture

theorem induction {motive : Picture → Prop} (text : ∀ s, motive (.text s))
    (primitive : ∀ v, motive (.primitive v)) (circular : ∀ id, motive (.circular id))
    (object : ∀ id parts, (∀ q ∈ parts, motive q) → motive (.object id parts)) (p : Picture) :
    motive p :=
  @Picture.rec motive (fun parts => ∀ q ∈ parts, motive q) text primitive circular object nofun
    (fun _ _ hhead htail => List.forall_mem_cons.mpr ⟨hhead, htail⟩) p

/-- What the picture stands for. -/
def piece : Picture → Piece
  | text s => .text s
  | primitive v => .value v
  | circular id | object id _ => .value (.object id)

mutual

/-- The text of a picture. -/
def written : Picture → String
  | text s => s
  | primitive v => primitiveText v
  | circular _ => "[Circular]"
  | object _ parts => writtenAll parts

/-- The texts of some pictures, one behind the other. -/
def writtenAll : List Picture → String
  | [] => ""
  | p :: others => p.written ++ writtenAll others

end

/-- Inside the objects of `path` there is a picture, and in this, inside the objects of `inner`,
another one occurs. -/
inductive Occurs : (path : List ObjectId) → Picture → (inner : List ObjectId) → Picture → Prop
  | here {path p} : Occurs path p path p
  | inside {path id parts q inner r} (hq : q ∈ parts) (hr : Occurs (id :: path) q inner r) :
    Occurs path (.object id parts) inner r

end Picture

open Picture

/-- The picture is one of the heap: an object is circular where it occurs inside of itself, and
where it does not, all that is written of it is there. -/
structure Shows (h : Heap) (path : List ObjectId) (p : Picture) : Prop where
  primitive {inner v} : Occurs path p inner (.primitive v) → v.isObject = false
  circular {inner id} : Occurs path p inner (.circular id) → id ∈ inner
  object {inner id parts} : Occurs path p inner (.object id parts) →
    id ∉ inner ∧ parts.map piece = pieces h id

namespace Shows

variable {h : Heap} {path : List ObjectId} {p q : Picture} {id : ObjectId} {parts : List Picture}

theorem of_text (s : String) : Shows h path (.text s) where
  primitive := nofun
  circular := nofun
  object := nofun

theorem of_primitive {v : Value} (hv : v.isObject = false) : Shows h path (.primitive v) where
  primitive
    | .here => hv
  circular := nofun
  object := nofun

theorem of_circular (hid : id ∈ path) : Shows h path (.circular id) where
  primitive := nofun
  circular
    | .here => hid
  object := nofun

theorem of_object (hid : id ∉ path) (hpieces : parts.map piece = pieces h id)
    (hparts : ∀ q ∈ parts, Shows h (id :: path) q) : Shows h path (.object id parts) where
  primitive
    | .inside hq hv => (hparts _ hq).primitive hv
  circular
    | .inside hq hid => (hparts _ hq).circular hid
  object
    | .here => ⟨hid, hpieces⟩
    | .inside hq hid => (hparts _ hq).object hid

/-- What occurs in an object is shown inside of it. -/
theorem part (hp : Shows h path (.object id parts)) (hq : q ∈ parts) : Shows h (id :: path) q where
  primitive hv := hp.primitive (.inside hq hv)
  circular hid := hp.circular (.inside hq hid)
  object hid := hp.object (.inside hq hid)

theorem eq_of_map_piece {parts' : List Picture} (hsame : parts.map piece = parts'.map piece)
    (hparts : ∀ r ∈ parts, ∀ r' ∈ parts', r.piece = r'.piece → r = r') : parts = parts' := by
  induction parts generalizing parts' with
  | nil => exact (List.map_eq_nil_iff.mp hsame.symm).symm
  | cons r parts ih =>
    cases parts' with
    | nil => cases hsame
    | cons r' parts' =>
      obtain ⟨hr, hsame⟩ := List.cons.inj hsame
      rw [hparts r List.mem_cons_self r' List.mem_cons_self hr, ih hsame fun q hq q' hq' =>
        hparts q (List.mem_cons_of_mem _ hq) q' (List.mem_cons_of_mem _ hq')]

/-- Each value is shown by one picture. -/
theorem unique (hp : Shows h path p) (hq : Shows h path q) (hpiece : p.piece = q.piece) :
    p = q := by
  induction p using Picture.induction generalizing path q with
  | text s =>
    cases q with
    | text => cases hpiece; rfl
    | primitive | circular | object => cases hpiece
  | primitive v =>
    have hv := hp.primitive .here
    cases q with
    | text => cases hpiece
    | primitive => cases hpiece; rfl
    | circular | object => cases hpiece; cases hv
  | circular id =>
    -- Two pictures of an object are of one kind, because it is on the path of both or of neither.
    have hid := hp.circular .here
    cases q with
    | text => cases hpiece
    | primitive => cases hpiece; cases hq.primitive .here
    | circular => cases hpiece; rfl
    | object => cases hpiece; exact absurd hid (hq.object .here).1
  | object id parts ih =>
    obtain ⟨hid, hparts⟩ := hp.object .here
    cases q with
    | text => cases hpiece
    | primitive => cases hpiece; cases hq.primitive .here
    | circular => cases hpiece; exact absurd (hq.circular .here) hid
    | object id' parts' =>
      cases hpiece
      obtain ⟨-, hparts'⟩ := hq.object .here
      refine congrArg (Picture.object id) (eq_of_map_piece (hparts.trans hparts'.symm) ?_)
      exact fun r hr r' hr' => ih r hr (hp.part hr) (hq.part hr')

end Shows

section Walk

variable {h : Heap}

/-- The texts of pictures are those of the pieces that they stand for. -/
theorem writtenAll_eq_fill {text : Value → String} {parts : List Picture}
    (hparts : ∀ q ∈ parts, q.written = fill text [q.piece]) :
    writtenAll parts = fill text (parts.map piece) := by
  induction parts with
  | nil => rfl
  | cons q parts ih =>
    obtain ⟨hq, hparts⟩ := List.forall_mem_cons.mp hparts
    rw [writtenAll, hq, ih hparts, ← fill_append, List.singleton_append, List.map_cons]

/-- An object that is not in the heap has no values in it. -/
theorem pieces_of_size_le {id : ObjectId} (hid : h.size ≤ id.index) :
    pieces h id = [.text "\x7b\x7d"] := by
  have hkeys : (default : Object).ownKeys true = [] := by
    have hnamed : (default : Object).namedKeys true = [] := rfl
    have helements : (default : Object).elementKeys = [] := rfl
    simp [Object.ownKeys, Object.sortByIndex, hnamed, helements]
  rw [pieces, h.get_of_size_le hid]
  change recordPieces none (((default : Object).ownKeys true).filterMap _) = _
  rw [hkeys]
  simp [recordPieces]

/-- The objects that a walk is inside are different ones of the heap. -/
structure Within (h : Heap) (path : List ObjectId) : Prop where
  nodup : path.Nodup
  index_lt : ∀ x ∈ path, x.index < h.size

theorem Within.length_le {path : List ObjectId} (hpath : Within h path) : path.length ≤ h.size :=
  Heap.length_le_of_nodup hpath.nodup hpath.index_lt

theorem Within.cons {path : List ObjectId} {id : ObjectId} (hpath : Within h path) (hid : id ∉ path)
    (hlt : id.index < h.size) : Within h (id :: path) :=
  ⟨List.nodup_cons.mpr ⟨hid, hpath.nodup⟩, List.forall_mem_cons.mpr ⟨hlt, hpath.index_lt⟩⟩

/-- A walk that may still go into all objects of the heap that it is not inside draws a picture. -/
theorem exists_shows {fuel : Nat} {path : List ObjectId} (hpath : Within h path)
    (hfuel : h.size < fuel + path.length) (v : Value) :
    ∃ p, p.piece = .value v ∧ Shows h path p ∧ p.written = textWithin h fuel path v := by
  induction fuel generalizing path v with
  | zero =>
    have hlength := hpath.length_le
    omega
  | succ fuel ih =>
    cases v with
    | object id =>
      by_cases hid : id ∈ path
      · exact ⟨.circular id, rfl, .of_circular hid, by simp [textWithin, hid, written]⟩
      · -- What the object has in it is drawn inside of it, with one step less.
        have hpiece (piece : Piece) (hmem : piece ∈ pieces h id) :
            ∃ q : Picture, q.piece = piece ∧ Shows h (id :: path) q ∧
              q.written = fill (textWithin h fuel (id :: path)) [piece] := by
          cases piece with
          | text s => exact ⟨.text s, rfl, .of_text s, by simp [written, fill]⟩
          | value w =>
            have hlt : id.index < h.size := by
              by_contra hsize
              rw [pieces_of_size_le (Nat.le_of_not_lt hsize)] at hmem
              simp at hmem
            have hlength : h.size < fuel + (id :: path).length := by
              rw [List.length_cons]
              omega
            obtain ⟨q, hq, hshows, hwritten⟩ := ih (hpath.cons hid hlt) hlength w
            exact ⟨q, hq, hshows, by simp [hwritten, fill]⟩
        choose! draw hdraw hshows hwritten using hpiece
        have hparts : ((pieces h id).map draw).map Picture.piece = pieces h id := by
          rw [List.map_map]
          exact (List.map_congr_left hdraw).trans (List.map_id _)
        have htexts : ∀ q ∈ (pieces h id).map draw,
            q.written = fill (textWithin h fuel (id :: path)) [q.piece] := by
          refine List.forall_mem_map.mpr fun piece hmem => ?_
          rw [hwritten piece hmem, hdraw piece hmem]
        refine ⟨.object id ((pieces h id).map draw), rfl,
          .of_object hid hparts (List.forall_mem_map.mpr hshows), ?_⟩
        rw [written, writtenAll_eq_fill htexts, hparts, ← objectText_eq_fill]
        simp [textWithin, hid]
    | _ => exact ⟨.primitive _, rfl, .of_primitive rfl, rfl⟩

end Walk

end Inspect

namespace Heap

open Inspect

/-! ## The walk along prototypes -/

/-- A walk along the prototypes of an object comes to the property of a key, or to the end. -/
inductive Inherits (h : Heap) (key : String) : ObjectId → Option Property → Prop
  | own {id property} (hown : (h.get id).getOwn? key = some property) :
    Inherits h key id (some property)
  | last {id} (hown : (h.get id).getOwn? key = none) (hlast : (h.get id).prototype = none) :
    Inherits h key id none
  | behind {id p found} (hown : (h.get id).getOwn? key = none) (hp : h.IsPrototype p id)
    (hfound : Inherits h key p found) : Inherits h key id found

variable {h : Heap} {key : String} {fuel : Nat} {path : List ObjectId} {id : ObjectId}

/-- A walk that may still go to all objects of the heap that it has not been at comes to its end. -/
theorem inherits_findWithin (hg : h.Grounded) (hpath : Within h path)
    (hbehind : ∀ x ∈ path, ∃ p, h.IsPrototype p x ∧ h.Reaches p id)
    (hfuel : h.size ≤ fuel + path.length) : h.Inherits key id (h.findWithin key fuel id) := by
  have hid : id ∉ path := fun hmem =>
    have ⟨_, hp, hreach⟩ := hbehind id hmem
    hg.not_reaches hp hreach
  induction fuel generalizing path id with
  | zero =>
    -- All objects of the heap are behind the walk, so this one is not in it.
    have hsize : h.size ≤ id.index := by
      by_contra hlt
      have hlength := (hpath.cons hid (Nat.lt_of_not_le hlt)).length_le
      rw [List.length_cons] at hlength
      omega
    refine .last ?_ ?_ <;> rw [h.get_of_size_le hsize] <;> rfl
  | succ fuel ih =>
    rw [findWithin]
    cases hown : (h.get id).getOwn? key with
    | some property => exact .own hown
    | none =>
      cases hp : (h.get id).prototype with
      | none => exact .last hown hp
      | some p =>
        have hlt : id.index < h.size := by
          by_contra hsize
          rw [h.get_of_size_le (Nat.le_of_not_lt hsize)] at hp
          cases hp
        have hnext : ∀ x ∈ id :: path, ∃ q, h.IsPrototype q x ∧ h.Reaches q p := by
          refine List.forall_mem_cons.mpr ⟨⟨p, hp, .refl⟩, fun x hx => ?_⟩
          obtain ⟨q, hq, hreach⟩ := hbehind x hx
          exact ⟨q, hq, .head hp hreach⟩
        refine .behind hown hp (ih (hpath.cons hid hlt) hnext ?_ fun hmem => ?_)
        · rw [List.length_cons]
          omega
        · have ⟨_, hq, hreach⟩ := hnext p hmem
          exact hg.not_reaches hq hreach

/-! ## Inspection -/

/-- **A value is inspected as its picture.**  In a grounded heap the walks that look for an
inherited property end, and so does the walk through the value, whatever bound above the size of the
heap it has.  The text is that of the one picture of the value, in which an object is circular
exactly where it is inside of itself. -/
theorem inspect_eq_written (hg : h.Grounded) (v : Value) :
    (∀ id key, h.Inherits key id (h.find? id key)) ∧
    (∀ fuel, h.size < fuel → textWithin h fuel [] v = h.inspect v) ∧
    ∃ p : Picture, p.piece = .value v ∧ Shows h [] p ∧ h.inspect v = p.written ∧
      (∀ q : Picture, q.piece = .value v → Shows h [] q → q = p) ∧
      ∀ path q id, Picture.Occurs [] p path q → q.piece = .value (.object id) →
        (q = .circular id ↔ id ∈ path) := by
  have hempty : Within h [] := ⟨List.nodup_nil, nofun⟩
  obtain ⟨p, hp, hshows, hwritten⟩ := exists_shows hempty (Nat.lt_succ_self h.size) v
  refine ⟨fun id key => ?_, fun fuel hfuel => ?_, p, hp, hshows, hwritten.symm, fun q hq hq' => ?_,
    fun path q id hoccurs hq => ⟨?_, fun hid => ?_⟩⟩
  · exact inherits_findWithin hg hempty nofun (Nat.le_refl _)
  · obtain ⟨q, hq, hq', hsame⟩ := exists_shows hempty hfuel v
    rw [← hsame, ← hshows.unique hq' (hp.trans hq.symm), hwritten]
    rfl
  · exact hq'.unique hshows (hq.trans hp.symm)
  · rintro rfl
    exact hshows.circular hoccurs
  · cases q with
    | text => cases hq
    | primitive => cases hq; cases hshows.primitive hoccurs
    | circular => cases hq; rfl
    | object => cases hq; exact absurd hid (hshows.object hoccurs).1

/-- An array that holds itself, a promise twice that is fulfilled with the array, and an error that
inherits its name. -/
def sharing : Heap :=
  ⟨#[.new none (.array #[.object ⟨0⟩, .object ⟨1⟩, .object ⟨1⟩, .object ⟨2⟩]),
    .new none (.promise (.settled (.fulfilled (.object ⟨0⟩)))),
    .new (some ⟨3⟩) .error,
    (Object.new none .ordinary).insertPlain "name" (.ofText "TypeError")]⟩

theorem grounded_sharing : sharing.Grounded := by
  refine Subrelation.wf (fun {p id} hp => ?_) (measure fun id : ObjectId => 3 - id.index).wf
  match id with
  | ⟨0⟩ | ⟨1⟩ | ⟨3⟩ | ⟨_ + 4⟩ => cases hp
  | ⟨2⟩ => cases hp; exact (by decide : 3 - 3 < 3 - 2)

theorem inspect_eq_written_sharing :
    sharing.Grounded ∧ sharing.Inherits "name" ⟨2⟩ (sharing.find? ⟨2⟩ "name") ∧
      sharing.inspect (.object ⟨0⟩) =
        "[ [Circular], Promise \x7b [Circular] \x7d, Promise \x7b [Circular] \x7d, TypeError ]" ∧
      ∃ p : Picture, p.piece = .value (.object ⟨0⟩) ∧ Shows sharing [] p ∧
        p.written = sharing.inspect (.object ⟨0⟩) := by
  obtain ⟨hinherits, -, p, hp, hshows, hwritten, -⟩ :=
    inspect_eq_written grounded_sharing (.object ⟨0⟩)
  exact ⟨grounded_sharing, hinherits _ _, by decide +kernel, p, hp, hshows, hwritten.symm⟩

end Heap

end EcmaEval
