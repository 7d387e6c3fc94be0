/-
  TokenTrust.Text.Numeral — decimal integers written as text, and what is wrong with a text that
  is none. Digits are read from the left, and the first fault found ends the reading: a character
  that is no digit, or a value past the limit.
-/

import TokenTrust.Bounds

namespace TokenTrust.Text

inductive NumeralError where
  | empty
  | badDigit
  | tooLarge
  deriving DecidableEq, Repr

def NumeralError.message : NumeralError → String
  | .empty => "cannot parse integer from empty string"
  | .badDigit => "invalid digit found in string"
  | .tooLarge => "number too large to fit in target type"

def digit? (c : Char) : Option Nat := if c.isDigit then some (c.toNat - '0'.toNat) else none

/-- Adds the digits to the value read so far, which may not pass `limit`. -/
def readDigits (limit : Nat) : Nat → List Char → Except NumeralError Nat
  | n, [] => .ok n
  | n, c :: cs =>
    match digit? c with
    | none => .error .badDigit
    | some d => if n * 10 + d ≤ limit then readDigits limit (n * 10 + d) cs else .error .tooLarge

/-- A numeral without sign: at least one digit. -/
def readMagnitude (limit : Nat) : List Char → Except NumeralError Nat
  | [] => .error .badDigit
  | cs => readDigits limit 0 cs

/-- An unsigned 64-bit integer; one leading plus is allowed. -/
def readUInt64 (s : String) : Except NumeralError UInt64 :=
  match s.toList with
  | [] => .error .empty
  | '+' :: cs => (readMagnitude maxUInt64 cs).map UInt64.ofNat
  | cs => (readMagnitude maxUInt64 cs).map UInt64.ofNat

/-- A signed 64-bit integer; one leading plus or minus is allowed. -/
def readInt64 (s : String) : Except NumeralError Int64 :=
  match s.toList with
  | [] => .error .empty
  | '+' :: cs => (readMagnitude maxInt64 cs).map Int64.ofNat
  | '-' :: cs => (readMagnitude (maxInt64 + 1) cs).map fun n => Int64.ofInt (-n)
  | cs => (readMagnitude maxInt64 cs).map Int64.ofNat

def ofInt64 (n : Int64) : String := toString n.toInt

def ofUInt64 (n : UInt64) : String := toString n.toNat

end TokenTrust.Text
