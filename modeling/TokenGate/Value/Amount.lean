import TokenGate.Value

/-!
# Amounts

A number in the data that says how many: it is either below zero or has a whole part. A fraction
is cut off, but an amount is zero only if nothing is cut off, so one half is not zero and has the
whole part zero. What is infinite or no number at all has no whole part.
-/

namespace TokenGate

/-- What a number says as an amount. -/
inductive Amount where
  | negative
  | whole (n : Nat) (isZero : Bool)
  /-- There is no whole part; `isNaN` is whether it is no number either. -/
  | endless (isNaN : Bool)
  deriving DecidableEq, Repr

namespace Amount

/-- An integer as an amount. -/
def ofInt : Int → Amount
  | .ofNat n => whole n (n == 0)
  | .negSucc _ => negative

/-- A double as an amount. -/
def ofDouble (x : Number.Double) : Amount :=
  if x.isNaN then endless true
  else if x.isNegative then negative
  else if x.isInfinite then endless false
  else whole x.truncate.toNat x.isZero

/-- The amount that a value says, if it is a number or a truth value. -/
def ofValue? : Value → Option Amount
  | .bool b => some (whole (if b then 1 else 0) !b)
  | .int n => some (ofInt n)
  | .float x => some (ofDouble x)
  | _ => none

end Amount

/-- The message about an amount that is no number, given the name of its kind. -/
def notAnAmount (kind : String) : String :=
  "'<' not supported between instances of '" ++ kind ++ "' and 'int'"

/-- The message about an amount without a whole part. -/
def endlessText (isNaN : Bool) : String :=
  "cannot convert float " ++ (if isNaN then "NaN" else "infinity") ++ " to integer"

end TokenGate
