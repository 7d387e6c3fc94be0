/-
  TokenTrust.Service.Call — what passes between a client and the pool of connections to the issuing
  service: connections lent and given back, and the calls made on them, each with its answer.
-/

import TokenTrust.Token.Request

namespace TokenTrust

inductive ServiceError where
  /-- The service does not know the requesting application. -/
  | notRegistered (message : String)
  /-- The connection failed, or none was to be had. -/
  | transport (message : String)
  deriving DecidableEq, Repr

def ServiceError.message : ServiceError → String
  | notRegistered message => s!"application not registered: {message}"
  | transport message => s!"transport failure: {message}"

/-- A connection to the service, numbered by the pool that lends it. -/
structure Connection where
  number : Nat
  deriving DecidableEq, Repr

inductive Call where
  | borrow (service : String) (answer : Except ServiceError Connection)
  | request (on : Connection) (request : Request) (signature : String)
      (answer : Except ServiceError Token)
  | refresh (on : Connection) (request : Request) (signature : String)
      (answer : Except ServiceError Token)
  | ping (on : Connection) (answer : Except ServiceError Bool)
  | giveBack (connection : Connection) (broken : Bool)

end TokenTrust
