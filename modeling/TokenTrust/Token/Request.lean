/-
  TokenTrust.Token.Request — one request for a token, to be issued or refreshed.
-/

import TokenTrust.Token.Assertion
import TokenTrust.Token.Basic

namespace TokenTrust

/-- What a token is asked for. -/
inductive Subject where
  /-- The requesting application itself. -/
  | application
  /-- A user asserted by the front end. -/
  | assertion (a : Assertion)
  /-- A token to derive from, or to refresh. -/
  | token (t : Token)
  /-- A principal signed by the issuer. -/
  | principal (p : Principal)
  deriving DecidableEq

namespace Subject

def codec : Json.Codec Subject where
  read := Json.readVariant [.unit "application" application,
    .holding "proxyPrincipal" Assertion.codec assertion,
    .holding "tokenPrincipal" Token.codec token,
    .holding "principal" Principal.codec principal]
  write
    | application => Json.writeText "application"
    | assertion a => Json.writeVariant "proxyPrincipal" (Assertion.codec.write a)
    | token t => Json.writeVariant "tokenPrincipal" (Token.codec.write t)
    | principal p => Json.writeVariant "principal" (Principal.codec.write p)

end Subject

structure Request where
  requester : String
  timestamp : Millis
  kind : TokenKind
  subject : Subject
  target : String
  exclude : Option (OrderedSet String) := none
  deriving DecidableEq

namespace Request

/-- Adds exclusions; an empty set of them is none. -/
def excluding (r : Request) (exclude : Option (OrderedSet String)) : Request :=
  { r with exclude := exclude.filter (!·.isEmpty) }

def assertion? (r : Request) : Option Assertion :=
  match r.subject with
  | .assertion a => some a
  | _ => none

def token? (r : Request) : Option Token :=
  match r.subject with
  | .token t => some t
  | _ => none

def principal? (r : Request) : Option Principal :=
  match r.subject with
  | .principal p => some p
  | _ => none

open Json in
def fields : Fields [String, Millis, TokenKind, Subject, String, Option (OrderedSet String)] :=
  .cons (.required "requesterSecurityId" text) <| .cons (.required "timestamp" int64) <|
  .cons (.required "type" TokenKind.codec) <| .cons (.required "subject" Subject.codec) <|
  .cons (.required "targetSecurityId" text) <|
  .cons (.optional "excludeAuthorizations" (set text)) .nil

def row (r : Request) :
    Json.Row [String, Millis, TokenKind, Subject, String, Option (OrderedSet String)] :=
  (r.requester, r.timestamp, r.kind, r.subject, r.target, r.exclude, ())

def codec : Json.Codec Request :=
  Json.record "TokenRequest" fields row
    (fun (requester, timestamp, kind, subject, target, exclude, ()) =>
      ⟨requester, timestamp, kind, subject, target, exclude⟩)

end Request

end TokenTrust
