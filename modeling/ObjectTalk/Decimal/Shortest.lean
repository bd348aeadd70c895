/-!
# `Decimal.Shortest` — the fewest digits that read back as the same double

A finite double is `m · 2^q`. The reals that round to it form an interval around it: half a step to
either side, or a quarter step below when `m` is the least of its binade; the ends belong to it exactly
when `m` is even. The shortest decimal is the point of the coarsest grid `10^k` that lies in the
interval, and of two such points the nearer one. All arithmetic is exact.
-/

namespace ObjectTalk.Decimal

/-- The real `digits · 10^exponent`. -/
structure Scientific where
  digits : Nat
  exponent : Int
deriving DecidableEq, Repr

/-- The size of a finite double as `m · 2^q`, with whether the step below it is half as wide. -/
structure Binary where
  significand : Nat
  exponent : Int
  narrowBelow : Bool
deriving DecidableEq, Repr

/-- The size of the finite double with the given bits; the sign is left out. -/
def Binary.ofBits (bits : UInt64) : Binary :=
  let fraction : Nat := bits.toNat % Nat.pow 2 52
  let biased : Nat := bits.toNat / Nat.pow 2 52 % Nat.pow 2 11
  if biased = 0 then
    ⟨fraction, -1074, false⟩
  else
    ⟨Nat.pow 2 52 + fraction, (biased : Int) - 1075, fraction = 0 ∧ 1 < biased⟩

/-- The interval of the reals that round to a double, in units of `1 / denominator`. -/
structure Interval where
  low : Nat
  value : Nat
  high : Nat
  denominator : Nat
  closed : Bool
deriving Repr

/-- The interval around `m · 2^q`: its ends and its middle are multiples of `2^(q - 2)`. -/
def Binary.interval (b : Binary) : Interval :=
  let unit := Nat.pow 2 (b.exponent - 2).toNat
  let value := 4 * b.significand
  { low := (value - if b.narrowBelow then 1 else 2) * unit
    value := value * unit
    high := (value + 2) * unit
    denominator := Nat.pow 2 (2 - b.exponent).toNat
    closed := b.significand % 2 = 0 }

/-- Whether `point · 10^k` lies in the interval, where the caller gives both sides of the comparison over
one denominator: `grid` is `10^k` in the interval's units. -/
def Interval.holds (i : Interval) (grid scale point : Nat) : Bool :=
  let at' := point * grid
  if i.closed then i.low * scale ≤ at' && at' ≤ i.high * scale
  else i.low * scale < at' && at' < i.high * scale

/-- The nearer of the two neighbours of the middle on the grid `10^k` that lie in the interval; of two
that are equally near, the even one. -/
def Interval.onGrid? (i : Interval) (k : Int) : Option Nat :=
  -- `10^k` is `grid / scale` units
  let grid := i.denominator * Nat.pow 10 k.toNat
  let scale := Nat.pow 10 (-k).toNat
  let below := i.value * scale / grid
  let above := below + 1
  let toBelow := i.value * scale - below * grid
  let toAbove := above * grid - i.value * scale
  match 0 < below && i.holds grid scale below, i.holds grid scale above with
  | true, true =>
    if toBelow < toAbove || (toBelow = toAbove && below % 2 = 0) then some below else some above
  | true, false => some below
  | false, true => some above
  | false, false => none

/-- The powers of ten that can be the last place of a double, coarsest first. -/
def places : List Int :=
  (List.range 640).map fun (n : Nat) => 310 - (n : Int)

/-- The fewest digits that read back as the positive finite double with the given bits; a zero has the
digit `0`. -/
def shortest (bits : UInt64) : Scientific :=
  let b := Binary.ofBits bits
  if b.significand = 0 then
    ⟨0, 0⟩
  else
    match places.findSome? fun k => (b.interval.onGrid? k).map fun digits => (⟨digits, k⟩ : Scientific) with
    | some found => found
    | none => ⟨0, 0⟩

end ObjectTalk.Decimal
