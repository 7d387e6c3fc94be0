/-
  TokenTrust.Crypto.Ed25519 — signatures on the twisted Edwards curve
  `-x² + y² = 1 + d x² y²` over the integers modulo `2²⁵⁵ - 19`.

  Signing is deterministic. Checking compares the written form of `S·B - k·A` with the first half
  of the signature: that half is never read as a point, the second half must be below the order of
  the base point, and keys of small order are accepted.
-/

import TokenTrust.Crypto.Sha512

namespace TokenTrust.Crypto.Ed25519

/-! ## The field -/

def p : Nat := Nat.pow 2 255 - 19

def sub (a b : Nat) : Nat := (a + (p - b % p)) % p

/-- `b ^ e`, for an exponent of at most 256 bits. -/
def pow (b e : Nat) : Nat :=
  (List.range 256).foldr
    (fun i acc => if e.testBit i then acc * acc % p * b % p else acc * acc % p) 1

def inv (a : Nat) : Nat := pow a (p - 2)

/-- The curve's constant, `-121665 / 121666`. -/
def d : Nat := 0x52036cee2b6ffe738cc740797779e89800700a4d4141d8ab75eb4dca135978a3

/-- A square root of `-1`. -/
def rootOfMinusOne : Nat := 0x2b8324804fc1df0b2b4d00993dfbd7a72f431806ad2fe478c4ee1b274a0ea0b0

/-- The even square root of `u / v`, if there is one. -/
def sqrtRatio? (u v : Nat) : Option Nat :=
  let v3 := v * v % p * v % p
  let v7 := v3 * v3 % p * v % p
  let r := u * v3 % p * pow (u * v7 % p) ((p - 5) / 8) % p
  let check := v * (r * r % p) % p
  let even (r : Nat) := if r % 2 = 0 then r else sub 0 r
  if check = u % p then some (even r)
  else if check = sub 0 u then some (even (r * rootOfMinusOne % p))
  else none

/-! ## The curve -/

/-- A point `(x / z, y / z)` with `t = x y / z`. -/
structure Point where
  x : Nat
  y : Nat
  z : Nat
  t : Nat
  deriving DecidableEq, Repr

namespace Point

def zero : Point := ⟨0, 1, 1, 0⟩

def base : Point :=
  let x := 0x216936d3cd6e53fec0a4e231fdd6dc5c692cc7609525a7b2c9562d608f25d51a
  let y := 0x6666666666666666666666666666666666666666666666666666666666666658
  ⟨x, y, 1, x * y % p⟩

def add (P Q : Point) : Point :=
  let a := sub P.y P.x * sub Q.y Q.x % p
  let b := (P.y + P.x) * (Q.y + Q.x) % p
  let c := P.t * (2 * d) % p * Q.t % p
  let e := P.z * 2 * Q.z % p
  let f := sub b a
  let g := sub e c
  let h := (e + c) % p
  let k := (b + a) % p
  ⟨f * g % p, h * k % p, g * h % p, f * k % p⟩

def neg (P : Point) : Point := ⟨sub 0 P.x, P.y, P.z, sub 0 P.t⟩

def mul (n : Nat) (P : Point) : Point :=
  (List.range 256).foldr
    (fun i acc =>
      let twice := add acc acc
      if n.testBit i then add twice P else twice) zero

end Point

/-! ## Bytes -/

/-- The number with the given bytes, the lowest first. -/
def ofBytes : List UInt8 → Nat
  | [] => 0
  | b :: bytes => b.toNat + 256 * ofBytes bytes

/-- The lowest 32 bytes of a number, the lowest first. -/
def toBytes (n : Nat) : List UInt8 := (List.range 32).map fun i => UInt8.ofNat (n / Nat.pow 256 i)

theorem length_toBytes (n : Nat) : (toBytes n).length = 32 := by simp [toBytes]

/-- A point is written as `y` with the lowest bit of `x` on top. -/
def Point.encode (P : Point) : List UInt8 :=
  let w := inv P.z
  toBytes (P.y * w % p + Nat.pow 2 255 * (P.x * w % p % 2))

/-- The point written by 32 bytes. The bits of `y` are taken modulo `p`; the top bit asks for the
odd root (and changes nothing when `x` is zero). -/
def Point.decode? (bytes : List UInt8) : Option Point :=
  let n := ofBytes bytes
  let y := n % Nat.pow 2 255 % p
  let yy := y * y % p
  (sqrtRatio? (sub yy 1) ((d * yy + 1) % p)).map fun r =>
    let x := if n.testBit 255 then sub 0 r else r
    ⟨x, y, 1, x * y % p⟩

/-! ## Keys and signatures -/

/-- The order of the base point. -/
def order : Nat := Nat.pow 2 252 + 27742317777372353535851937790883648493

/-- A public key: its bytes as they were given, and the point they write. -/
structure PublicKey where
  bytes : List UInt8
  point : Point
  deriving DecidableEq, Repr

def PublicKey.ofBytes? (bytes : List UInt8) : Option PublicKey :=
  (Point.decode? bytes).map fun point => ⟨bytes, point⟩

/-- The secret factor of a seed: the first half of its digest, a multiple of eight with bit 254
on top. -/
def secret (seed : List UInt8) : Nat :=
  let n := ofBytes ((Sha512.digest seed).take 32)
  n % Nat.pow 2 254 / 8 * 8 + Nat.pow 2 254

def publicKey (seed : List UInt8) : PublicKey :=
  let point := Point.mul (secret seed) Point.base
  ⟨point.encode, point⟩

/-- The digest of some bytes, as a number below the order. -/
def hashToScalar (bytes : List UInt8) : Nat := ofBytes (Sha512.digest bytes) % order

/-- The 64 bytes of the signature of a message under a seed whose public key is `key`. -/
def sign (seed : List UInt8) (key : PublicKey) (message : List UInt8) : List UInt8 :=
  let r := hashToScalar ((Sha512.digest seed).drop 32 ++ message)
  let first := (Point.mul r Point.base).encode
  let k := hashToScalar (first ++ key.bytes ++ message)
  first ++ toBytes ((r + k * secret seed) % order)

theorem length_sign (seed : List UInt8) (key : PublicKey) (message : List UInt8) :
    (sign seed key message).length = 64 := by
  simp [sign, Point.encode, length_toBytes]

/-- Whether 64 bytes are a signature of the message under the key. -/
def verify (key : PublicKey) (message signature : List UInt8) : Bool :=
  let first := signature.take 32
  let s := ofBytes (signature.drop 32)
  let k := hashToScalar (first ++ key.bytes ++ message)
  decide (s < order) &&
    ((Point.mul s Point.base).add (Point.mul k key.point.neg)).encode == first

end TokenTrust.Crypto.Ed25519
