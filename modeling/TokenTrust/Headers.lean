/-
  TokenTrust.Headers — the headers of an inbound request, and the user's assertion in them. Names
  are the same when their upper-case forms are; some gateways put `HTTP_` in front.
-/

import TokenTrust.Session.Run
import TokenTrust.Text.Casing
import TokenTrust.Token.Assertion

namespace TokenTrust

/-- The values received under each name. -/
abbrev Headers := List (String × List String)

namespace Headers

def assertionName : String := "verified_user_info"

def signatureName : String := "verified_signature"

/-- What gateways put in front of a name. -/
def gatewayMark : String := "HTTP_"

/-- The first value under a name of some kind. -/
def firstUnder (h : Headers) (fits : String → Bool) : Option String :=
  h.findSome? fun (name, values) => if fits name then values.head? else none

/-- The value of a header: under the upper-case name itself, under the name in any case, and then
under these two in the form of the gateways. A name without values is not there. -/
def value? (h : Headers) (name : String) : Option String :=
  let upper := Text.Casing.upperText name
  let marked := gatewayMark ++ upper
  (h.firstUnder (· == upper))
    <|> (h.firstUnder fun n => Text.Casing.upperText n == upper)
    <|> (h.firstUnder (· == marked))
    <|> h.firstUnder fun n => Text.Casing.upperText n == marked

variable {σ : Type}

def lookup (h : Headers) (name : String) : Run σ (Option String) := do
  let value := h.value? name
  Run.log (.headerLookup name value.isSome)
  return value

/-- The assertion in the headers, if its text is not empty and a signature is there. -/
def assertion (h : Headers) : Run σ (Option Assertion) := do
  match (← h.lookup assertionName).filter (· ≠ "") with
  | none => return none
  | some text => return (← h.lookup signatureName).map fun signature => ⟨text, signature⟩

end Headers

end TokenTrust
