/-
  TokenTrust.Json.Codec — a type's JSON form in both directions: how its text is read and how it
  is written. Texts, booleans, integers, optional values, lists, sets and maps. Readers pass over
  blanks in front of the value; writers put none anywhere.
-/

import TokenTrust.Json.Skip
import TokenTrust.Ordered.Map

namespace TokenTrust.Json

structure Codec (α : Type) where
  read : Reader α
  write : α → List Char

/-! ## Scalars -/

def hexLower (n : Nat) : Char := if n < 10 then Char.ofNat (n + 48) else Char.ofNat (n + 87)

/-- One character of a written text: the quote, the backslash and the controls are escaped. -/
def escapeChar (c : Char) : List Char :=
  if c = '"' then ['\\', '"']
  else if c = '\\' then ['\\', '\\']
  else if c = '\x08' then ['\\', 'b']
  else if c = '\t' then ['\\', 't']
  else if c = '\n' then ['\\', 'n']
  else if c = '\x0c' then ['\\', 'f']
  else if c = '\r' then ['\\', 'r']
  else if c.toNat < 0x20 then
    ['\\', 'u', '0', '0', hexLower (c.toNat / 16), hexLower (c.toNat % 16)]
  else [c]

def writeText (s : String) : List Char := '"' :: (s.toList.flatMap escapeChar ++ ['"'])

def readText : Reader String := fun s =>
  match skip s with
  | [] => .error (.placed .endInValue 0)
  | c :: r => if c = '"' then textBody r else .error (wrongType "a string" (c :: r))

def text : Codec String := ⟨readText, writeText⟩

def readBoolean : Reader Bool := fun s =>
  match skip s with
  | [] => .error (.placed .endInValue 0)
  | c :: r =>
    if c = 't' then (word ['r', 'u', 'e'] r).map (true, ·)
    else if c = 'f' then (word ['a', 'l', 's', 'e'] r).map (false, ·)
    else .error (wrongType "a boolean" (c :: r))

def boolean : Codec Bool where
  read := readBoolean
  write b := if b then ['t', 'r', 'u', 'e'] else ['f', 'a', 'l', 's', 'e']

def readInteger (expected : String) (least most : Int) : Reader Int := fun s => do
  let (n, r) ← match skip s with
    | [] => .error (.placed .endInValue 0)
    | c :: r =>
      if c = '-' then numberFrom true r
      else if c.isDigit then numberFrom false (c :: r)
      else .error (wrongType expected (c :: r))
  match n with
  | .floating x => .error (.here (.wrongType (.floating x) expected) r)
  | .integer n =>
    if least ≤ n ∧ n ≤ most then .ok (n, r) else .error (.here (.outOfRange n expected) r)

def writeInteger (n : Int) : List Char :=
  if n < 0 then '-' :: Nat.toDigits 10 n.natAbs else Nat.toDigits 10 n.natAbs

def int64 : Codec Int64 where
  read s := (readInteger "i64" (-(maxInt64 + 1)) maxInt64 s).map fun (n, r) => (Int64.ofInt n, r)
  write n := writeInteger n.toInt

def uint64 (expected : String) : Codec UInt64 where
  read s := (readInteger expected 0 maxUInt64 s).map fun (n, r) => (UInt64.ofNat n.toNat, r)
  write n := writeInteger n.toNat

def optional {α : Type} (c : Codec α) : Codec (Option α) where
  read s :=
    match skip s with
    | 'n' :: r => (word ['u', 'l', 'l'] r).map (none, ·)
    | s => (c.read s).map fun (a, r) => (some a, r)
  write
    | none => ['n', 'u', 'l', 'l']
    | some a => c.write a

/-! ## Lists -/

def joined (sep : Char) : List (List Char) → List Char
  | [] => []
  | [a] => a
  | a :: rest => a ++ sep :: joined sep rest

/-- Whether another item of a list follows; the rest starts with it, or with the bracket. -/
def nextItem (first : Bool) (s : List Char) : Except Fault (Bool × List Char) :=
  match skip s with
  | [] => .error (.placed .endInList 0)
  | c :: r =>
    if c = ']' then .ok (false, c :: r)
    else if first then .ok (true, c :: r)
    else if c = ',' then
      match skip r with
      | [] => .error (.placed .endInValue 0)
      | c' :: r' =>
        if c' = ']' then .error (.past .trailingComma (c' :: r')) else .ok (true, c' :: r')
    else .error (.past .expectedCommaOrBracket (c :: r))

/-- The items up to the closing bracket, which is read too; there are at most `fuel`. -/
def items {α : Type} (item : Reader α) : Nat → Bool → Reader (List α)
  | 0, _, s => .ok ([], s)
  | fuel + 1, first, s => do
    let (more, s) ← nextItem first s
    if more then
      let (a, s) ← item s
      let (as, s) ← items item fuel false s
      .ok (a :: as, s)
    else .ok ([], s.drop 1)

/-- What follows a list in which a fault is pending: its bracket is read if it is next. -/
def afterList (s : List Char) : List Char :=
  match skip s with
  | ']' :: r => r
  | ',' :: r => skip r
  | r => r

def readList {α : Type} (item : Reader α) : Reader (List α) := fun s =>
  match skip s with
  | [] => .error (.placed .endInValue 0)
  | c :: r =>
    if c = '[' then (items item (r.length + 1) true r).mapError (·.settle afterList)
    else .error (wrongType "a sequence" (c :: r))

def writeList {α : Type} (item : α → List Char) (l : List α) : List Char :=
  '[' :: (joined ',' (l.map item) ++ [']'])

def list {α : Type} (c : Codec α) : Codec (List α) := ⟨readList c.read, writeList c.write⟩

/-- A set is written as the list of its members; any list is read as one. -/
def set {α : Type} [LT α] [DecidableLT α] [LE α] [Std.IsLinearOrder α] [Std.LawfulOrderLT α]
    (c : Codec α) : Codec (OrderedSet α) where
  read s := (readList c.read s).map fun (l, r) => (OrderedSet.ofList l, r)
  write a := writeList c.write a.toList

/-! ## Members of objects -/

/-- Whether another member of an object follows; the rest is what follows the quote of its key, or
the closing brace. -/
def nextMember (first : Bool) (s : List Char) : Except Fault (Bool × List Char) :=
  match skip s with
  | [] => .error (.placed .endInObject 0)
  | c :: r =>
    if c = '\x7d' then .ok (false, r)
    else if first then
      if c = '"' then .ok (true, r) else .error (.past .keyNotText (c :: r))
    else if c = ',' then
      match skip r with
      | [] => .error (.placed .endInValue 0)
      | c' :: r' =>
        if c' = '"' then .ok (true, r')
        else if c' = '\x7d' then .error (.past .trailingComma (c' :: r'))
        else .error (.past .keyNotText (c' :: r'))
    else .error (.past .expectedCommaOrBrace (c :: r))

/-- Reads members one after the other, up to the closing brace, which is read too. -/
def members {δ : Type} (member : String → δ → Reader δ) : Nat → Bool → δ → Reader δ
  | 0, _, d, s => .ok (d, s)
  | fuel + 1, first, d, s => do
    let (more, s) ← nextMember first s
    if more then
      let (key, s) ← textBody s
      let (d, s) ← member key d s
      members member fuel false d s
    else .ok (d, s)

/-- What follows an object in which a fault is pending: its brace is read if it is next. -/
def afterObject (s : List Char) : List Char :=
  match skip s with
  | '}' :: r => r
  | r => r

def writeObject (ms : List (String × List Char)) : List Char :=
  '\x7b' :: (joined ',' (ms.map fun (k, v) => writeText k ++ ':' :: v) ++ ['\x7d'])

/-- A map is written with its keys in order; of a repeated key the last value counts. -/
def map {β : Type} (c : Codec β) : Codec (OrderedMap β) where
  read s :=
    match skip s with
    | [] => .error (.placed .endInValue 0)
    | b :: r =>
      if b = '\x7b' then
        (members (fun key m s => do
          let s ← colon s
          let (v, s) ← c.read s
          .ok (m.insert key v, s)) (r.length + 1) true OrderedMap.empty r).mapError
          (·.settle afterObject)
      else .error (wrongType "a map" (b :: r))
  write m := writeObject (m.toList.map fun (k, v) => (k, c.write v))

/-! ## Whole texts -/

def Codec.parseList {α : Type} (c : Codec α) (s : List Char) : Except Fault α := do
  let (a, r) ← c.read s
  match skip r with
  | [] => .ok a
  | r => .error (.past .trailingCharacters r)

def Codec.parse {α : Type} (c : Codec α) (s : String) : Except String α :=
  (c.parseList s.toList).mapError (·.describe s.toList)

/-- The value that a strict form refuses in a text, if it comes that far. -/
def Codec.refused? {α : Type} (strict : Codec α) (s : String) : Option String :=
  match strict.parseList s.toList with
  | .error (.placed (.refused value) _) => some value
  | _ => none

def Codec.render {α : Type} (c : Codec α) (a : α) : String := String.ofList (c.write a)

end TokenTrust.Json
