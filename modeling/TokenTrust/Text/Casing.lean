/-
  TokenTrust.Text.Casing — upper case in full (a character may become several), and lower case
  as far as words of ASCII letters are concerned.
-/

import TokenTrust.Text.CasingTable

namespace TokenTrust.Text.Casing

def Run.upper? (r : Run) (n : Nat) : Option Char :=
  if r.first ≤ n && n ≤ r.last && (n - r.first) % r.step == 0 then
    some (Char.ofNat (n + r.shift).toNat)
  else none

def upper (c : Char) : List Char :=
  let n := c.toNat
  if n < 0x80 then [c.toUpper]
  else match special.lookup n with
    | some form => form.map Char.ofNat
    | none => [(runs.findSome? (·.upper? n)).getD c]

def upperText (s : String) : String := String.ofList (s.toList.flatMap upper)

/-- Lower case for comparison with words of ASCII letters: besides the capitals of ASCII only the
Kelvin sign has a lower-case form made of ASCII letters, so every other character may stay. -/
def lowerLetter (c : Char) : Char := if c = '\u212A' then 'k' else c.toLower

def lowerWord (s : String) : String := String.ofList (s.toList.map lowerLetter)

end TokenTrust.Text.Casing
