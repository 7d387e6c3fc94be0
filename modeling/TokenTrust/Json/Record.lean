/-
  TokenTrust.Json.Record — values with named fields, and values that are one of several variants.

  A record is described once by its fields. It is written as an object, without the optional
  fields that are absent. It is read from an object whose members stand in any order, of which
  unknown ones are skipped, or from an array of its fields in order.
-/

import TokenTrust.Json.Codec

namespace TokenTrust.Json

/-- A field: its name, the form of its value, the value it has when it is not given, and whether a
value is written at all. -/
structure Field (α : Type) where
  name : String
  codec : Codec α
  absent : Option α
  shown : α → Bool

def Field.required {α : Type} (name : String) (c : Codec α) : Field α :=
  ⟨name, c, none, fun _ => true⟩

def Field.withDefault {α : Type} (name : String) (c : Codec α) (value : α) : Field α :=
  ⟨name, c, some value, fun _ => true⟩

/-- A field that is left out when it has no value. -/
def Field.optional {α : Type} (name : String) (c : Codec α) : Field (Option α) :=
  ⟨name, Json.optional c, some none, Option.isSome⟩

def Row : List Type → Type
  | [] => Unit
  | α :: αs => α × Row αs

/-- The values read so far. -/
def Draft : List Type → Type
  | [] => Unit
  | α :: αs => Option α × Draft αs

inductive Fields : List Type → Type 1 where
  | nil : Fields []
  | cons {α : Type} {αs : List Type} : Field α → Fields αs → Fields (α :: αs)

namespace Fields

def blank : {αs : List Type} → Fields αs → Draft αs
  | _, nil => ()
  | _, cons _ fs => (none, blank fs)

/-- What a key means while a draft is read: no field, one that has a value already, or one whose
value is to be read. -/
inductive Slot (δ : Type) where
  | unknown
  | taken
  | free (read : Reader δ)

def slot (key : String) : {αs : List Type} → Fields αs → Draft αs → Slot (Draft αs)
  | _, nil, _ => .unknown
  | _, cons f fs, (a, d) =>
    if f.name = key then
      match a with
      | some _ => .taken
      | none => .free fun s => (f.codec.read s).map fun (v, r) => ((some v, d), r)
    else
      match slot key fs d with
      | .unknown => .unknown
      | .taken => .taken
      | .free read => .free fun s => (read s).map fun (d, r) => ((a, d), r)

/-- The values of a draft, or the name of the first field that has none. -/
def complete : {αs : List Type} → Fields αs → Draft αs → Except String (Row αs)
  | _, nil, _ => .ok ()
  | _, cons f fs, (a, d) =>
    match a.or f.absent with
    | some v => (complete fs d).map fun row => (v, row)
    | none => .error f.name

def member {αs : List Type} (fs : Fields αs) (key : String) (d : Draft αs) : Reader (Draft αs) :=
  fun s =>
    match fs.slot key d with
    | .taken => .error (.pending (.duplicateMember key) s)
    | .unknown => do
      let s ← colon s
      let s ← skipValue s
      .ok (d, s)
    | .free read => do
      let s ← colon s
      read s

def readObject {αs : List Type} (fs : Fields αs) : Reader (Row αs) := fun s => do
  let (d, s) ← (members fs.member (s.length + 1) true fs.blank s).mapError (·.settle afterObject)
  match fs.complete d with
  | .ok row => .ok (row, s)
  | .error name => .error (.here (.missingMember name) s)

/-- The fields of an array whose bracket has been read, from the field with the given index on. -/
def readArray (expected : String) : {αs : List Type} → Fields αs → Nat → Bool → Reader (Row αs)
  | _, nil, _, _ => fun s =>
    match skip s with
    | [] => .error (.placed .endInList 0)
    | c :: r =>
      if c = ']' then .ok ((), r)
      else if c = ',' then
        match skip r with
        | c' :: r' =>
          .error (.past (if c' = ']' then .trailingComma else .trailingCharacters) (c' :: r'))
        | [] => .error (.placed .trailingCharacters 0)
      else .error (.past .trailingCharacters (c :: r))
  | _, cons f fs, index, first => fun s => do
    let (more, s) ← nextItem first s
    if more then
      let (v, s) ← f.codec.read s
      let (row, s) ← readArray expected fs (index + 1) false s
      .ok ((v, row), s)
    else
      match f.absent with
      | none => .error (.pending (.wrongLength index expected) s)
      | some v =>
        let (row, s) ← readArray expected fs (index + 1) first s
        .ok ((v, row), s)

def count : {αs : List Type} → Fields αs → Nat
  | _, nil => 0
  | _, cons _ fs => count fs + 1

def shownMembers : {αs : List Type} → Fields αs → Row αs → List (String × List Char)
  | _, nil, _ => []
  | _, cons f fs, (v, row) =>
    if f.shown v then (f.name, f.codec.write v) :: shownMembers fs row else shownMembers fs row

end Fields

def record {α : Type} {αs : List Type} (name : String) (fs : Fields αs) (toRow : α → Row αs)
    (ofRow : Row αs → α) : Codec α where
  read s :=
    let expected := s!"struct {name}"
    match skip s with
    | [] => .error (.placed .endInValue 0)
    | c :: r =>
      if c = '\x7b' then (fs.readObject r).map fun (row, r) => (ofRow row, r)
      else if c = '[' then
        let n := fs.count
        let elements := if n = 1 then "1 element" else s!"{n} elements"
        ((fs.readArray s!"{expected} with {elements}" 0 true r).mapError (·.settle afterList)).map
          fun (row, r) => (ofRow row, r)
      else .error (wrongType expected (c :: r))
  write a := writeObject (fs.shownMembers (toRow a))

/-! ## Variants -/

structure Variant (α : Type) where
  name : String
  alone : Option α
  payload : Reader α

/-- A variant without payload; `null` may stand for one. -/
def Variant.unit {α : Type} (name : String) (a : α) : Variant α where
  name := name
  alone := some a
  payload s :=
    match skip s with
    | [] => .error (.placed .endInValue 0)
    | c :: r =>
      if c = 'n' then (word ['u', 'l', 'l'] r).map (a, ·) else .error (wrongType "unit" (c :: r))

def Variant.holding {α β : Type} (name : String) (c : Codec β) (wrap : β → α) : Variant α where
  name := name
  alone := none
  payload s := (c.read s).map fun (b, r) => (wrap b, r)

def findVariant {α : Type} (vs : List (Variant α)) (name : String) (s : List Char) :
    Except Fault (Variant α) :=
  match vs.find? (·.name = name) with
  | some v => .ok v
  | none => .error (.here (.unknownVariant name (vs.map (·.name))) s)

/-- The key that names the variant of an object whose brace has been read. -/
def variantKey : Reader String := fun s =>
  match skip s with
  | [] => .error (.placed .endInObject 0)
  | c :: r =>
    if c = '"' then textBody r
    else .error (.past (if c = '\x7d' then .expectedValue else .keyNotText) (c :: r))

/-- One of several variants, given by its name or by an object with its name and its payload. -/
def readVariant {α : Type} (vs : List (Variant α)) : Reader α := fun s =>
  match skip s with
  | [] => .error (.placed .endInValue 0)
  | c :: r =>
    if c = '\x7b' then do
      let (name, s) ← variantKey r
      let v ← findVariant vs name s
      let s ← colon s
      let (a, s) ← v.payload s
      match skip s with
      | [] => .error (.placed .endInObject 0)
      | c :: r => if c = '\x7d' then .ok (a, r) else .error (.here .expectedValue (c :: r))
    else if c = '"' then do
      let (name, s) ← textBody r
      let v ← findVariant vs name s
      match v.alone with
      | some a => .ok (a, s)
      | none => .error (.pending .bareVariant s)
    else .error (.past .expectedValue (c :: r))

def writeVariant (name : String) (payload : List Char) : List Char := writeObject [(name, payload)]

end TokenTrust.Json
