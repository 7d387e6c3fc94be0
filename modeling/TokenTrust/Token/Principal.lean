/-
  TokenTrust.Token.Principal — the subject of a token, with the way it was delegated.
-/

import TokenTrust.Token.Validity

namespace TokenTrust

structure Principal where
  /-- The subject's name. -/
  subject : String
  name : Option String := none
  issuer : Option String := none
  /-- Earlier delegations, in the order they happened. -/
  requestChain : List String := []
  validity : Validity
  deriving DecidableEq

namespace Principal

open Json in
def fields : Fields [String, Option String, Option String, List String, Validity] :=
  .cons (.required "principal" text) <| .cons (.optional "name" text) <|
  .cons (.optional "issuer" text) <| .cons (.withDefault "requestChain" (list text) []) <|
  .cons (.required "validity" Validity.codec) .nil

def codec : Json.Codec Principal :=
  Json.record "Principal" fields
    (fun p => (p.subject, p.name, p.issuer, p.requestChain, p.validity, ()))
    (fun (subject, name, issuer, chain, validity, ()) => ⟨subject, name, issuer, chain, validity⟩)

end Principal

end TokenTrust
