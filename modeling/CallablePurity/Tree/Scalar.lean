set_option autoImplicit false

/-! # Scalars

The values of PHP literals. Two scalars are *equal as values* when they denote the same value:
`1`, `1.0` and `true` are one number, `0`, `-0.0` and `false` another, and a number is never a
text. An integer and a float are compared exactly, without rounding the integer. -/

namespace CallablePurity

inductive Scalar where
  | null
  | bool (b : Bool)
  | int (i : Int)
  | float (x : Float)
  | text (s : String)

namespace Scalar

/-! ## Floats as integers -/

/-- The integer that a float denotes; none for an infinity, a float that is not a number and a
    float with a fractional part. -/
def integerOf? (x : Float) : Option Int :=
  let power := Nat.pow 2
  let bits := x.toBits.toNat
  let exponent := bits / power 52 % power 11
  let fraction := bits % power 52
  let signed (n : Nat) : Int := if bits / power 63 = 0 then n else -n
  if exponent = 2047 then none
  else
    -- the float is `significand * 2 ^ (scale - 1075)`
    let significand := if exponent = 0 then fraction else fraction + power 52
    let scale := if exponent = 0 then 1 else exponent
    if 1075 ≤ scale then some (signed (significand * power (scale - 1075)))
    else
      let unit := power (1075 - scale)
      if significand % unit = 0 then some (signed (significand / unit)) else none

/-! ## Equality as values -/

/-- A scalar as a number: truth values count as `0` and `1`. -/
def integer? : Scalar → Option Int
  | bool b => some b.toInt
  | int i => some i
  | _ => none

/-- The two scalars denote the same value. -/
def same : Scalar → Scalar → Bool
  | null, null => true
  | text s, text t => s = t
  | float x, float y => x == y
  | float x, b => (integerOf? x).isSome && integerOf? x = b.integer?
  | a, float y => (integerOf? y).isSome && integerOf? y = a.integer?
  | a, b => a.integer?.isSome && a.integer? = b.integer?

end Scalar

end CallablePurity
