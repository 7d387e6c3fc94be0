/-
  TokenTrust.Token.Assertion — a front end's statement of who the user of a request is. It travels
  as a text with a signature over exactly its bytes; only the text's reader looks inside.
-/

import TokenTrust.Token.Validity

namespace TokenTrust

structure Assertion where
  text : String
  signature : String
  deriving DecidableEq

structure Certificate where
  subject : String
  issuer : Option String := none
  deriving DecidableEq

structure AssertedUser where
  certificate : Certificate
  issuedBy : String
  issuedTo : String
  issuedFor : Option String := none
  notAfter : Millis
  deriving DecidableEq

namespace Assertion

open Json in
def fields : Fields [String, String] :=
  .cons (.required "proxyToken" Json.text) <| .cons (.required "signature" Json.text) .nil

def codec : Json.Codec Assertion :=
  Json.record "ProxyPrincipal" fields (fun a => (a.text, a.signature, ()))
    (fun (text, signature, ()) => ⟨text, signature⟩)

end Assertion

namespace Certificate

open Json in
def fields : Fields [String, Option String] :=
  .cons (.required "subject" text) <| .cons (.optional "issuer" text) .nil

def codec : Json.Codec Certificate :=
  Json.record "X509Info" fields (fun c => (c.subject, c.issuer, ()))
    (fun (subject, issuer, ()) => ⟨subject, issuer⟩)

end Certificate

namespace AssertedUser

def subject (u : AssertedUser) : String := u.certificate.subject

open Json in
def fields : Fields [Certificate, String, String, Option String, Millis] :=
  .cons (.required "x509" Certificate.codec) <| .cons (.required "issuedBy" text) <|
  .cons (.required "issuedTo" text) <| .cons (.optional "issuedFor" text) <|
  .cons (.required "notAfter" int64) .nil

def codec : Json.Codec AssertedUser :=
  Json.record "ProxyUserToken" fields
    (fun u => (u.certificate, u.issuedBy, u.issuedTo, u.issuedFor, u.notAfter, ()))
    (fun (certificate, issuedBy, issuedTo, issuedFor, notAfter, ()) =>
      ⟨certificate, issuedBy, issuedTo, issuedFor, notAfter⟩)

end AssertedUser

end TokenTrust
