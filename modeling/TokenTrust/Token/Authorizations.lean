/-
  TokenTrust.Token.Authorizations — the authorization labels that a token carries.
-/

import TokenTrust.Json.Record

namespace TokenTrust

structure Authorizations where
  formal : OrderedSet String := .empty
  community : OrderedSet String := .empty
  platformObjects : OrderedSet Int64 := .empty
  deriving DecidableEq

namespace Authorizations

def none : Authorizations := {}

def ofFormal (labels : OrderedSet String) : Authorizations := { formal := labels }

def isEmpty (a : Authorizations) : Bool :=
  a.formal.isEmpty && a.community.isEmpty && a.platformObjects.isEmpty

/-- Drops every excluded label, formal or of a community. -/
def without (a : Authorizations) (excluded : OrderedSet String) : Authorizations :=
  { a with
    formal := a.formal.filter fun l => decide (l ∉ excluded)
    community := a.community.filter fun l => decide (l ∉ excluded) }

open Json in
def fields : Fields [OrderedSet String, OrderedSet String, OrderedSet Int64] :=
  .cons (.withDefault "formal" (set text) .empty) <|
  .cons (.withDefault "externalCommunity" (set text) .empty) <|
  .cons (.withDefault "platformObject" (set int64) .empty) .nil

def row (a : Authorizations) : Json.Row [OrderedSet String, OrderedSet String, OrderedSet Int64] :=
  (a.formal, a.community, a.platformObjects, ())

def codec : Json.Codec Authorizations :=
  Json.record "Authorizations" fields row
    (fun (formal, community, platformObjects, ()) => ⟨formal, community, platformObjects⟩)

end Authorizations

end TokenTrust
