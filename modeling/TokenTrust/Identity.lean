/-
  TokenTrust.Identity — the ids of applications: integers, of which those below a thousand belong
  to the platform. Services of the platform also have common names.
-/

import TokenTrust.Text.Numeral

namespace TokenTrust.Identity

structure Reserved where
  id : String
  name : String
  deriving DecidableEq, Repr

def certificateAuthority : Reserved := ⟨"00", "_Ts_CA"⟩
def issuer : Reserved := ⟨"01", "_Ts_Issuer"⟩
def frontEnd : Reserved := ⟨"02", "_Ts_FrontEnd"⟩
def registration : Reserved := ⟨"03", "_Ts_Registration"⟩
def deployer : Reserved := ⟨"04", "_Ts_Deployer"⟩

def reserved : List Reserved := [certificateAuthority, issuer, frontEnd, registration, deployer]

/-- What every common name starts with. -/
def reservedStart : List Char := "_Ts_".toList

/-- The first number that does not belong to the platform. -/
def reservedEnd : Int64 := 1000

def hasCommonName (id : String) : Bool := reservedStart.isPrefixOf id.toList

def number? (id : String) : Option Int64 := (Text.readInt64 id).toOption

def isReserved (id : String) : Bool :=
  hasCommonName id || (number? id).any fun n => 0 ≤ n && n < reservedEnd

/-- Whether the text is an id, and not a name to be looked up. -/
def isId (id : String) : Bool := isReserved id || (number? id).isSome

/-- The identity of the platform with the given id or common name. -/
def find? (idOrName : String) : Option Reserved :=
  reserved.find? fun r => r.id = idOrName || r.name = idOrName

end TokenTrust.Identity
