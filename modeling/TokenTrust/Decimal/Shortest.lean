/-
  TokenTrust.Decimal.Shortest — the decimal text of a double with the fewest digits that read
  back as the same double, and among those the nearest. A finite double is `m · 2^q`; the numbers
  that round to it form an interval around it, which includes its ends when `m` is even. For each
  count of digits only the two neighbours of the value on that decimal grid have to be tried.
-/

import TokenTrust.Bounds

namespace TokenTrust

/-- `digits · 10 ^ exponent`. -/
structure Decimal where
  digits : Nat
  exponent : Int
  deriving DecidableEq, Repr

namespace Decimal

/-- Two factors `(a, b)` such that `x · 2^q` compares with `n · 10^k` as `x · a` with `n · b`. -/
def grains (q k : Int) : Nat × Nat :=
  (Nat.pow 2 q.toNat * Nat.pow 10 (-k).toNat, Nat.pow 10 k.toNat * Nat.pow 2 (-q).toNat)

/-- The exponent of the leading decimal digit of `m · 2^q`, for positive `m`. -/
def leading (m : Nat) (q : Int) : Int :=
  let guess := (m.log2 + q) * 30103 / 100000
  let reaches (k : Int) : Bool := let (a, b) := grains q k; b ≤ m * a
  if reaches (guess + 1) then guess + 1 else if reaches guess then guess else guess - 1

/-- The decimal on the grid of `10^k` that lies in the interval around `m · 2^q`, the nearer one
if there are two. Quarters of `2^q` are counted, since the interval's ends are halves or
quarters away. -/
def onGrid? (m : Nat) (q : Int) (narrow : Bool) (k : Int) : Option Decimal :=
  let (a, b) := grains (q - 2) k
  let value := 4 * m * a
  let low := (4 * m - (if narrow then 1 else 2)) * a
  let high := (4 * m + 2) * a
  let inside (n : Nat) : Bool :=
    if m % 2 = 0 then low ≤ n * b && n * b ≤ high else low < n * b && n * b < high
  let below := value / b
  let above := below + 1
  let nearBelow := 2 * (value - below * b)
  if inside below && (!inside above || nearBelow < b || (nearBelow == b && below % 2 == 0)) then
    some ⟨below, k⟩
  else if inside above then some ⟨above, k⟩
  else none

def strip : Nat → Decimal → Decimal
  | 0, d => d
  | fuel + 1, d =>
    if d.digits ≠ 0 ∧ d.digits % 10 = 0 then strip fuel ⟨d.digits / 10, d.exponent + 1⟩ else d

/-- The shortest decimal of `m · 2^q`; seventeen digits always suffice. -/
def shortest (m : Nat) (q : Int) (narrow : Bool) : Decimal :=
  let e := leading m q
  let hit := (List.range 17).findSome? fun (n : Nat) => onGrid? m q narrow (e - n)
  strip 20 (hit.getD ⟨m, 0⟩)

/-- How decimals are laid out: positional from `10^low` up to below `10^(high + 1)`, otherwise
with an exponent. -/
structure Layout where
  low : Int
  high : Int

/-- Positional between `0.00001` and sixteen digits. -/
def layout : Layout := ⟨-5, 15⟩

def zeros (n : Int) : List Char := List.replicate n.toNat '0'

def Layout.render (l : Layout) (d : Decimal) : List Char :=
  let ds := Nat.toDigits 10 d.digits
  let e := d.exponent + ds.length - 1
  if l.low ≤ e ∧ e ≤ l.high then
    if e < 0 then ['0', '.'] ++ zeros (-e - 1) ++ ds
    else if 0 ≤ d.exponent then ds ++ zeros d.exponent ++ ['.', '0']
    else ds.take (e + 1).toNat ++ '.' :: ds.drop (e + 1).toNat
  else
    let fraction := ds.drop 1
    ds.take 1 ++ (if fraction.isEmpty then [] else '.' :: fraction) ++
      ['e', if e < 0 then '-' else '+'] ++ Nat.toDigits 10 e.natAbs

/-- The text of a finite double. A value that is integral and positional ends in `.0`. -/
def ofFloat (f : Float) : String :=
  let bits : Nat := f.toBits.toNat
  let sign := if maxInt64 < bits then ['-'] else []
  let biased : Nat := bits / Nat.pow 2 52 % Nat.pow 2 11
  let fraction : Nat := bits % Nat.pow 2 52
  let text :=
    if biased = 0 ∧ fraction = 0 then ['0', '.', '0']
    else if biased = 0 then layout.render (shortest fraction (-1074) false)
    else layout.render
      (shortest (Nat.pow 2 52 + fraction) (biased - 1075) (fraction = 0 && biased ≠ 1))
  String.ofList (sign ++ text)

end Decimal

end TokenTrust
