/-
  TokenTrust.Token.Validity — who issued something to whom, for whom, and until when.
-/

import TokenTrust.Json.Record
import TokenTrust.Time

namespace TokenTrust

/-- Issuer, holder, recipient and validity window of a token or principal, and the issuer's
signature. -/
structure Validity where
  issuer : String
  issuedTo : String
  issuedFor : Option String := none
  issuedTime : Millis
  notBefore : Option Millis := none
  notAfter : Millis
  signature : Option String := none
  deriving DecidableEq

namespace Validity

/-- A window ends strictly before `notAfter`. -/
def isValidAt (v : Validity) (now : Millis) : Bool := now < v.notAfter

def recipient (v : Validity) : Option String := v.issuedFor.filter (· ≠ "")

open Json in
def fields : Fields [String, String, Option String, Millis, Option Millis, Millis, Option String] :=
  .cons (.required "issuer" text) <| .cons (.required "issuedTo" text) <|
  .cons (.optional "issuedFor" text) <| .cons (.required "issuedTime" int64) <|
  .cons (.optional "notBefore" int64) <| .cons (.required "notAfter" int64) <|
  .cons (.optional "signature" text) .nil

def codec : Json.Codec Validity :=
  Json.record "ValidityCaveats" fields
    (fun v => (v.issuer, v.issuedTo, v.issuedFor, v.issuedTime, v.notBefore, v.notAfter,
      v.signature, ()))
    (fun (issuer, issuedTo, issuedFor, issuedTime, notBefore, notAfter, signature, ()) =>
      ⟨issuer, issuedTo, issuedFor, issuedTime, notBefore, notAfter, signature⟩)

end Validity

end TokenTrust
