/-
  TokenTrust.Text.Base64 — bytes as text in the standard alphabet. Four symbols stand for three
  bytes; the last group is filled up with `=`, and bits that stand for no byte are zero, so each
  list of bytes has exactly one text. Reading works on the bytes of the text and names the first
  byte at fault.
-/

namespace TokenTrust.Text.Base64

inductive DecodeError where
  | badSymbol (byte : UInt8) (offset : Nat)
  | badLength (symbols : Nat)
  | badPadding
  /-- The last symbol has bits that stand for no byte. -/
  | badLastSymbol (byte : UInt8) (offset : Nat)
  deriving DecidableEq, Repr

def DecodeError.message : DecodeError → String
  | .badSymbol b i => s!"Invalid symbol {b.toNat}, offset {i}."
  | .badLength n => s!"Invalid input length: {n}"
  | .badPadding => "Invalid padding"
  | .badLastSymbol b i => s!"Invalid last symbol {b.toNat}, offset {i}."

def symbol (v : Nat) : Char :=
  if v < 26 then Char.ofNat (v + 65)
  else if v < 52 then Char.ofNat (v + 71)
  else if v < 62 then Char.ofNat (v - 4)
  else if v = 62 then '+' else '/'

def value? (b : UInt8) : Option Nat :=
  let n := b.toNat
  if 65 ≤ n ∧ n ≤ 90 then some (n - 65)
  else if 97 ≤ n ∧ n ≤ 122 then some (n - 71)
  else if 48 ≤ n ∧ n ≤ 57 then some (n + 4)
  else if n = 43 then some 62
  else if n = 47 then some 63
  else none

theorem value?_symbol : ∀ v < 64, value? (symbol v).toNat.toUInt8 = some v := by decide

/-! ## Writing -/

def encodeList : List UInt8 → List Char
  | [] => []
  | [a] =>
    let a := a.toNat
    [symbol (a / 4), symbol (a % 4 * 16), '=', '=']
  | [a, b] =>
    let a := a.toNat
    let b := b.toNat
    [symbol (a / 4), symbol (a % 4 * 16 + b / 16), symbol (b % 16 * 4), '=']
  | a :: b :: c :: rest =>
    let a := a.toNat
    let b := b.toNat
    let c := c.toNat
    symbol (a / 4) :: symbol (a % 4 * 16 + b / 16) :: symbol (b % 16 * 4 + c / 64) ::
      symbol (c % 64) :: encodeList rest

def encode (bytes : List UInt8) : String := String.ofList (encodeList bytes)

/-! ## Reading -/

def pad : UInt8 := 61

def symbolAt (offset : Nat) (b : UInt8) : Except DecodeError Nat :=
  match value? b with
  | some v => .ok v
  | none => .error (.badSymbol b offset)

def wholeGroup (a b c d : Nat) : List UInt8 :=
  [UInt8.ofNat (a * 4 + b / 16), UInt8.ofNat (b % 16 * 16 + c / 4), UInt8.ofNat (c % 4 * 64 + d)]

/-- The values before the padding of the last group; after the first `=` only `=` may follow, and
none stands among the first two symbols. -/
def lastValues (offset : Nat) : Nat → List UInt8 → Except DecodeError (List Nat)
  | _, [] => .ok []
  | pos, b :: rest =>
    if b = pad then
      if 2 ≤ pos ∧ rest.all (· == pad) then .ok [] else .error (.badSymbol b (offset + pos))
    else do
      let v ← symbolAt (offset + pos) b
      let vs ← lastValues offset (pos + 1) rest
      return v :: vs

/-- The bytes of the last group, which starts at `offset` and has at most four bytes. -/
def decodeLast (offset : Nat) (group : List UInt8) : Except DecodeError (List UInt8) := do
  let vs ← lastValues offset 0 group
  if group ≠ [] ∧ vs.length < 2 then .error (.badLength (offset + vs.length))
  else if group.length % 4 ≠ 0 then .error .badPadding
  else
    let fault := DecodeError.badLastSymbol (group.getD (vs.length - 1) 0) (offset + vs.length - 1)
    match vs with
    | [a, b] =>
      if b % 16 = 0 then .ok ((wholeGroup a b 0 0).take 1) else .error fault
    | [a, b, c] =>
      if c % 4 = 0 then .ok ((wholeGroup a b c 0).take 2) else .error fault
    | [a, b, c, d] => .ok (wholeGroup a b c d)
    | _ => .ok []

def decodeFrom (offset : Nat) : List UInt8 → Except DecodeError (List UInt8)
  | a :: b :: c :: d :: e :: rest => do
    let va ← symbolAt offset a
    let vb ← symbolAt (offset + 1) b
    let vc ← symbolAt (offset + 2) c
    let vd ← symbolAt (offset + 3) d
    let bytes ← decodeFrom (offset + 4) (e :: rest)
    return wholeGroup va vb vc vd ++ bytes
  | group => decodeLast offset group

/-- A lone last byte outside the alphabet (such as a line end) is reported before all else. -/
def straySymbol (bytes : List UInt8) : Option DecodeError :=
  match bytes.getLast? with
  | some b =>
    if bytes.length % 4 = 1 ∧ b ≠ pad ∧ value? b = none then
      some (.badSymbol b (bytes.length - 1))
    else none
  | none => none

def decode (s : String) : Except DecodeError (List UInt8) :=
  let bytes := s.toByteArray.data.toList
  match straySymbol bytes with
  | some e => .error e
  | none => decodeFrom 0 bytes

end TokenTrust.Text.Base64
