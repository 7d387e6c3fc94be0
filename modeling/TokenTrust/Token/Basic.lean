/-
  TokenTrust.Token.Basic — security tokens: a signed statement about who someone is, what they may
  do, and until when.
-/

import TokenTrust.Token.Authorizations
import TokenTrust.Token.Principal

namespace TokenTrust

/-- Whether a token speaks for an end user or for an application. -/
inductive TokenKind where
  | user
  | app
  deriving DecidableEq, Repr

namespace TokenKind

def name : TokenKind → String
  | user => "USER"
  | app => "APP"

def codec : Json.Codec TokenKind where
  read := Json.readVariant [.unit user.name user, .unit app.name app]
  write k := Json.writeText k.name

end TokenKind

/-- Membership of the subject in one external community. -/
structure Membership where
  name : String
  kind : String := ""
  organization : String := ""
  groups : List String := []
  topics : List String := []
  regions : List String := []
  flags : OrderedMap Bool := .empty
  deriving DecidableEq

namespace Membership

open Json in
def fields :
    Fields [String, String, String, List String, List String, List String, OrderedMap Bool] :=
  .cons (.required "name" text) <| .cons (.withDefault "communityType" text "") <|
  .cons (.withDefault "organization" text "") <| .cons (.withDefault "groups" (list text) []) <|
  .cons (.withDefault "topics" (list text) []) <| .cons (.withDefault "regions" (list text) []) <|
  .cons (.withDefault "flags" (map boolean) .empty) .nil

def codec : Json.Codec Membership :=
  Json.record "CommunityMembership" fields
    (fun m => (m.name, m.kind, m.organization, m.groups, m.topics, m.regions, m.flags, ()))
    (fun (name, kind, organization, groups, topics, regions, flags, ()) =>
      ⟨name, kind, organization, groups, topics, regions, flags⟩)

end Membership

structure Token where
  kind : TokenKind
  principal : Principal
  validity : Validity
  authorizations : Authorizations := .none
  level : Option String := none
  projectGroups : OrderedMap (List String) := .empty
  communities : OrderedMap Membership := .empty
  citizenship : Option String := none
  organization : Option String := none
  validForExternalRequest : Bool := false
  deriving DecidableEq

namespace Token

/-- The project and the group in it that mark an administrator of the platform. -/
def internalProject : String := "_Ts_internal"
def adminGroup : String := "admins"

def holder (t : Token) : String := t.validity.issuedTo

def recipient (t : Token) : Option String := t.validity.recipient

def subject (t : Token) : String := t.principal.subject

def userId (t : Token) : Option String :=
  match t.kind with
  | .user => some t.subject
  | .app => none

/-- The user's name if it is known, else the subject. -/
def username (t : Token) : Option String :=
  match t.kind with
  | .user => some (t.principal.name.getD t.subject)
  | .app => none

def applicationId (t : Token) : Option String :=
  match t.kind with
  | .app => some t.subject
  | .user => none

def isAdmin (t : Token) : Bool :=
  match t.projectGroups.get? internalProject with
  | some groups => groups.contains adminGroup
  | none => false

def isValidAt (t : Token) (now : Millis) : Bool := t.validity.isValidAt now

open Json in
def fields : Fields [TokenKind, Principal, Validity, Authorizations, Option String,
    OrderedMap (List String), OrderedMap Membership, Option String, Option String, Bool] :=
  .cons (.required "type" TokenKind.codec) <| .cons (.required "principal" Principal.codec) <|
  .cons (.required "validity" Validity.codec) <|
  .cons (.withDefault "authorizations" Authorizations.codec .none) <|
  .cons (.optional "authorizationLevel" text) <|
  .cons (.withDefault "externalProjectGroups" (map (list text)) .empty) <|
  .cons (.withDefault "externalCommunities" (map Membership.codec) .empty) <|
  .cons (.optional "citizenship" text) <| .cons (.optional "organization" text) <|
  .cons (.withDefault "validForExternalRequest" boolean false) .nil

def row (t : Token) : Json.Row [TokenKind, Principal, Validity, Authorizations, Option String,
    OrderedMap (List String), OrderedMap Membership, Option String, Option String, Bool] :=
  (t.kind, t.principal, t.validity, t.authorizations, t.level, t.projectGroups, t.communities,
    t.citizenship, t.organization, t.validForExternalRequest, ())

def codec : Json.Codec Token :=
  Json.record "SecurityToken" fields row
    (fun (kind, principal, validity, authorizations, level, projectGroups, communities, citizenship,
        organization, validForExternalRequest, ()) =>
      ⟨kind, principal, validity, authorizations, level, projectGroups, communities, citizenship,
        organization, validForExternalRequest⟩)

end Token

end TokenTrust
