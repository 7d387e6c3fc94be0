/-
  TokenTrust.Cache.Basic — a bounded store of tokens that drops the least recently used entry when
  it is full. Putting an entry and finding it make it the most recently used one.
-/

import TokenTrust.Cache.Key

namespace TokenTrust

/-- The counters are natural numbers, where a running cache counts in words of 64 bits. None of them is
greater than the number of things that were done to the cache (`Cache.Balances.bounded`), so the two
agree as long as there were fewer than 2^64 of these. -/
structure Cache where
  capacity : Nat
  /-- The most recently used entry stands first. -/
  entries : List (Cache.Key × Token) := []
  hits : Nat := 0
  misses : Nat := 0
  /-- Entries dropped to make room. -/
  capacityEvictions : Nat := 0
  /-- Entries found stale and dropped. -/
  expiryEvictions : Nat := 0
  deriving DecidableEq

namespace Cache

/-- An empty cache for at least one entry. -/
def ofCapacity (n : Nat) : Cache := { capacity := max 1 n }

def defaultCapacity : Nat := 1000

def size (c : Cache) : Nat := c.entries.length

/-- The token under a key; asking does not count as use. -/
def peek? (c : Cache) (key : Key) : Option Token := c.entries.lookup key

def others (c : Cache) (key : Key) : List (Key × Token) :=
  c.entries.filter fun e => decide (e.1 ≠ key)

def use (c : Cache) (key : Key) : Option Token × Cache :=
  match c.peek? key with
  | some token => (some token, { c with entries := (key, token) :: c.others key })
  | none => (none, c)

/-- Puts a token under a key; the answer is the key that had to make room. -/
def put (c : Cache) (key : Key) (token : Token) : Option Key × Cache :=
  let entries := (key, token) :: c.others key
  if entries.length ≤ c.capacity then (none, { c with entries })
  else
    (entries.getLast?.map (·.1),
      { c with entries := entries.dropLast, capacityEvictions := c.capacityEvictions + 1 })

def remove (c : Cache) (key : Key) : Option Token × Cache :=
  (c.peek? key, { c with entries := c.others key })

/-- Takes out the entry under a key if it still is the token found stale. -/
def dropStale (c : Cache) (key : Key) (token : Token) : Bool × Cache :=
  if c.peek? key = some token then
    (true, { c with entries := c.others key, expiryEvictions := c.expiryEvictions + 1 })
  else (false, c)

def clear (c : Cache) : Cache := { c with entries := [] }

def hit (c : Cache) : Cache := { c with hits := c.hits + 1 }

def miss (c : Cache) : Cache := { c with misses := c.misses + 1 }

/-- The share of hits among all lookups, zero when there were none. -/
def hitRate (hits misses : Nat) : Float :=
  if hits + misses = 0 then 0.0
  else (UInt64.ofNat hits).toFloat / (UInt64.ofNat (hits + misses)).toFloat

end Cache

end TokenTrust
