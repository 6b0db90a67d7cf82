import StellarFlow.Lib.Decimal
import StellarFlow.Lib.Python

/-!
# Fixed-point numbers

Model of the conversions of `src/analytics/math_scaler.py`. A fixed-point integer stands for a multiple of
`1 / factor`. Decimals have the 28 significant digits of the default context, which the module never changes.
-/

namespace StellarFlow.Analytics

/-- `SCALE_7`. -/
def scale7 : ℤ := 10000000

/-- `SCALE_14`. -/
def scale14 : ℤ := 100000000000000

/-- The precision of the default context of `decimal`. -/
def precision : ℕ := 28

def typeError (msg : String) : PyError := .exception "TypeError" msg

/-- An argument that should be an integer. A Boolean is one to Python, which the module does not accept. -/
inductive IntArg where
  | bool (b : Bool)
  | int (n : ℤ)
  | other

/-- `Number`: a Boolean, a number by its value, or what is no finite number by its `repr`. Floats have the value of
their shortest text. -/
inductive Number where
  | bool (b : Bool)
  | finite (x : ℚ)
  | notFinite (text : String)
  | invalid (text : String)

/-- `_validate_positive_int`. -/
def validatePositiveInt (value : IntArg) (name : String) : Except PyError ℤ :=
  match value with
  | .int n => if n ≤ 0 then .error (.valueError (name ++ " must be positive.")) else .ok n
  | .bool _ | .other => .error (typeError (name ++ " must be an integer."))

/-- `_to_decimal`. -/
def toDecimal (value : Number) (name : String) : Except PyError ℚ :=
  match value with
  | .bool _ => .error (typeError (name ++ " must be numeric, not bool."))
  | .finite x => .ok x
  | .notFinite text => .error (.valueError (name ++ " must be finite, got " ++ text ++ "."))
  | .invalid text => .error (.valueError (name ++ " is not a valid number: " ++ text))

/-- `scale_up`, with the rounding mode as a function. -/
def scaleUp (value : Number) (factor : IntArg) (rounding : ℚ → ℤ) : Except PyError ℤ := do
  let factor ← validatePositiveInt factor "factor"
  let d ← toDecimal value "value"
  return rounding (Decimal.mul precision d factor)

/-- `to_fixed`, and `scale_up` with its defaults. -/
def toFixed (value : Number) : Except PyError ℤ := scaleUp value (.int scale7) Decimal.halfEven

/-- `scale_down`. -/
def scaleDown (value : ℤ) (factor : IntArg) : Except PyError ℚ := do
  let factor ← validatePositiveInt factor "factor"
  return Decimal.div precision value factor

/-- `fraction_to_scaled`. -/
def fractionToScaled (value : ℚ) (factor : IntArg) : Except PyError ℤ :=
  scaleUp (.finite (Decimal.div precision value.num value.den)) factor Decimal.halfEven

end StellarFlow.Analytics
