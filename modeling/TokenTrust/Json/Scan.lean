/-
  TokenTrust.Json.Scan — the smallest pieces of a JSON text: blanks, words, texts and numbers.
  A reader takes the characters left and gives its value and the characters after it.
-/

import TokenTrust.Json.Fault

namespace TokenTrust.Json

abbrev Reader (α : Type) := List Char → Except Fault (α × List Char)

def isSpace (c : Char) : Bool := c == ' ' || c == '\n' || c == '\t' || c == '\r'

def skip (s : List Char) : List Char := s.dropWhile isSpace

def word : List Char → List Char → Except Fault (List Char)
  | [], s => .ok s
  | _ :: _, [] => .error (.placed .endInValue 0)
  | w :: ws, c :: s => if c = w then word ws s else .error (.past .expectedIdent (c :: s))

/-! ## Texts -/

def hexDigit? (c : Char) : Option Nat :=
  if '0' ≤ c ∧ c ≤ '9' then some (c.toNat - 48)
  else if 'a' ≤ c ∧ c ≤ 'f' then some (c.toNat - 87)
  else if 'A' ≤ c ∧ c ≤ 'F' then some (c.toNat - 55)
  else none

def escaped? (c : Char) : Option Char :=
  if c = '"' then some '"'
  else if c = '\\' then some '\\'
  else if c = '/' then some '/'
  else if c = 'b' then some '\x08'
  else if c = 'f' then some '\x0c'
  else if c = 'n' then some '\n'
  else if c = 'r' then some '\r'
  else if c = 't' then some '\t'
  else none

/-- An escape takes four bytes for its digits; `n` of them are still to come, and one of them is
no digit. -/
def hexFault (n : Nat) (s : List Char) : Fault :=
  if n ≤ width s then .placed .badEscape (width s - n) else .placed .endInText 0

inductive TextState where
  | plain
  | escape
  /-- `n + 1` digits of an escape are to come; `high` is a surrogate that waits for its pair. -/
  | hex (high : Option Nat) (n : Nat) (value : Nat)
  | pairSlash (high : Nat)
  | pairU (high : Nat)
  deriving DecidableEq

def isHighSurrogate (n : Nat) : Bool := 0xD800 ≤ n && n ≤ 0xDBFF
def isLowSurrogate (n : Nat) : Bool := 0xDC00 ≤ n && n ≤ 0xDFFF

/-- What a complete escape gives: a character, or a surrogate that waits for its pair. -/
def unitValue (high : Option Nat) (value : Nat) : Option (Char ⊕ Nat) :=
  match high with
  | some h =>
    if isLowSurrogate value then
      some (.inl (Char.ofNat (0x10000 + (h - 0xD800) * 0x400 + (value - 0xDC00))))
    else none
  | none =>
    if isLowSurrogate value then none
    else if isHighSurrogate value then some (.inr value)
    else some (.inl (Char.ofNat value))

/-- The characters of a text up to its closing quote, from the given state on. -/
def textFrom : TextState → Reader (List Char)
  | .plain, [] => .error (.placed .endInText 0)
  | .plain, c :: s =>
    if c = '"' then .ok ([], s)
    else if c = '\\' then textFrom .escape s
    else if c.toNat < 0x20 then .error (.here .controlCharacter s)
    else (textFrom .plain s).map fun (cs, rest) => (c :: cs, rest)
  | .escape, [] => .error (.placed .endInText 0)
  | .escape, c :: s =>
    if c = 'u' then textFrom (.hex none 3 0) s
    else match escaped? c with
      | some e => (textFrom .plain s).map fun (cs, rest) => (e :: cs, rest)
      | none => .error (.past .badEscape (c :: s))
  | .hex _ _ _, [] => .error (.placed .endInText 0)
  | .hex high n value, c :: s =>
    match hexDigit? c with
    | none => .error (hexFault (n + 1) (c :: s))
    | some digit =>
      match n with
      | n + 1 => textFrom (.hex high n (value * 16 + digit)) s
      | 0 =>
        match unitValue high (value * 16 + digit) with
        | some (.inl e) => (textFrom .plain s).map fun (cs, rest) => (e :: cs, rest)
        | some (.inr h) => textFrom (.pairSlash h) s
        | none => .error (.here .loneSurrogate s)
  | .pairSlash _, [] => .error (.placed .endInText 0)
  | .pairSlash h, c :: s =>
    if c = '\\' then textFrom (.pairU h) s else .error (.past .endOfHexEscape (c :: s))
  | .pairU _, [] => .error (.placed .endInText 0)
  | .pairU h, c :: s =>
    if c = 'u' then textFrom (.hex (some h) 3 0) s else .error (.past .endOfHexEscape (c :: s))

def textBody : Reader String := fun s =>
  (textFrom .plain s).map fun (cs, rest) => (String.ofList cs, rest)

/-! ## Numbers -/

def digits (s : List Char) : List Char × List Char :=
  (s.takeWhile Char.isDigit, s.dropWhile Char.isDigit)

def digitValue (c : Char) : Nat := c.toNat - '0'.toNat

inductive Number where
  | integer (n : Int)
  | floating (x : Float)
  deriving DecidableEq

def Number.found : Number → Found
  | .integer n => .integer n
  | .floating x => .floating x

/-- A significand of at most 64 bits, and the power of ten it is to be scaled by. -/
structure Scaled where
  significand : Nat
  exponent : Int
  deriving DecidableEq

def wholeDigits (cs : List Char) : Scaled :=
  cs.foldl
    (fun v c =>
      let next := v.significand * 10 + digitValue c
      if v.exponent = 0 ∧ next ≤ maxUInt64 then ⟨next, 0⟩ else ⟨v.significand, v.exponent + 1⟩)
    ⟨0, 0⟩

/-- The digits after the point; from the first one that does not fit they are dropped. -/
def fractionDigits : Scaled → List Char → Scaled
  | v, [] => v
  | v, c :: cs =>
    let next := v.significand * 10 + digitValue c
    if next ≤ maxUInt64 then fractionDigits ⟨next, v.exponent - 1⟩ cs else v

def pow10 (n : Nat) : Float := Float.ofScientific 1 false n

/-- `x / 10^e`, in steps of at most `10^308`. -/
def divPow10 (x : Float) (e : Nat) : Float :=
  if e ≤ 308 then x / pow10 e
  else if x == 0 then x
  else divPow10 (x / pow10 308) (e - 308)
termination_by e
decreasing_by omega

/-- The double of a scaled significand: one multiplication or a few divisions of doubles, none if
it is too large. -/
def Scaled.toFloat? (v : Scaled) : Option Float :=
  let x := v.significand.toUInt64.toFloat
  if 0 ≤ v.exponent then
    let e := v.exponent.toNat
    if e ≤ 308 then
      let y := x * pow10 e
      if y.isInf then none else some y
    else if x == 0 then some x
    else none
  else some (divPow10 x v.exponent.natAbs)

def signed (negative : Bool) (x : Float) : Float := if negative then -x else x

def floatOf (negative : Bool) (v : Scaled) (s : List Char) : Except Fault (Number × List Char) :=
  match v.toFloat? with
  | some x => .ok (.floating (signed negative x), s)
  | none => .error (.here .numberTooLarge s)

/-- Reads digits into an exponent as long as it fits 31 bits: its value, or none and what follows
the digit that was too many. -/
def exponentDigits : Nat → List Char → Option Nat × List Char
  | e, [] => (some e, [])
  | e, c :: s =>
    if c.isDigit then
      let next := e * 10 + digitValue c
      if next ≤ maxInt32 then exponentDigits next s else (none, s)
    else (some e, c :: s)

/-- Exponents of the scaled value stay within 32 bits. -/
def clampExponent (e : Int) : Int := max (-(maxInt32 + 1)) (min e maxInt32)

def exponentPart (negative : Bool) (v : Scaled) (s : List Char) :
    Except Fault (Number × List Char) :=
  let (down, s) := match s with
    | '+' :: r => (false, r)
    | '-' :: r => (true, r)
    | r => (false, r)
  match s with
  | [] => .error (.placed .endInValue 0)
  | c :: r =>
    if c.isDigit then
      match exponentDigits (digitValue c) r with
      | (some e, r) =>
        let e : Int := if down then v.exponent - e else v.exponent + e
        floatOf negative ⟨v.significand, clampExponent e⟩ r
      | (none, r) =>
        if v.significand ≠ 0 ∧ !down then .error (.here .numberTooLarge r)
        else .ok (.floating (signed negative 0), r.dropWhile Char.isDigit)
    else .error (.past .badNumber (c :: r))

def fractionPart (negative : Bool) (v : Scaled) (s : List Char) :
    Except Fault (Number × List Char) :=
  match digits s with
  | ([], []) => .error (.placed .endInValue 0)
  | ([], r) => .error (.past .badNumber r)
  | (ds, r) =>
    let v := fractionDigits v ds
    match r with
    | 'e' :: r => exponentPart negative v r
    | 'E' :: r => exponentPart negative v r
    | r => floatOf negative v r

/-- The rest of a number after its whole part: an integer, unless a point, an exponent or a
significand beyond 64 bits makes it floating; so does a negative one that is zero or does not
fit. -/
def numberTail (negative : Bool) (v : Scaled) (s : List Char) :
    Except Fault (Number × List Char) :=
  match s with
  | '.' :: r => fractionPart negative v r
  | 'e' :: r => exponentPart negative v r
  | 'E' :: r => exponentPart negative v r
  | r =>
    if v.exponent ≠ 0 then floatOf negative v r
    else if !negative then .ok (.integer v.significand, r)
    else if 1 ≤ v.significand ∧ v.significand ≤ maxInt64 + 1 then .ok (.integer (-v.significand), r)
    else .ok (.floating (-v.significand.toUInt64.toFloat), r)

def numberFrom (negative : Bool) (s : List Char) : Except Fault (Number × List Char) :=
  match s with
  | [] => .error (.placed .endInValue 0)
  | c :: r =>
    if c = '0' then
      match r with
      | c' :: _ => if c'.isDigit then .error (.past .badNumber r) else numberTail negative ⟨0, 0⟩ r
      | [] => numberTail negative ⟨0, 0⟩ r
    else if c.isDigit then
      let (ds, r) := digits (c :: r)
      numberTail negative (wholeDigits ds) r
    else .error (.past .badNumber (c :: r))

/-! ## Values of another type -/

/-- The fault of a value that is not what was expected. A scalar is read to its end first, and its
own faults win; brackets are only looked at. -/
def wrongType (expected : String) (s : List Char) : Fault :=
  let after (found : Found) (rest : List Char) := Fault.here (.wrongType found expected) rest
  let ofWord (found : Found) (ws rest : List Char) :=
    match word ws rest with
    | .ok rest => after found rest
    | .error f => f
  let ofNumber (negative : Bool) (rest : List Char) :=
    match numberFrom negative rest with
    | .ok (n, rest) => after n.found rest
    | .error f => f
  match s with
  | 'n' :: r => ofWord .null ['u', 'l', 'l'] r
  | 't' :: r => ofWord (.boolean true) ['r', 'u', 'e'] r
  | 'f' :: r => ofWord (.boolean false) ['a', 'l', 's', 'e'] r
  | '-' :: r => ofNumber true r
  | '"' :: r =>
    match textBody r with
    | .ok (t, rest) => after (.text t) rest
    | .error f => f
  | '[' :: _ => after .sequence s
  | '{' :: _ => after .map s
  | c :: _ => if c.isDigit then ofNumber false s else .past .expectedValue s
  | [] => .past .expectedValue s

end TokenTrust.Json
