import CallFlow.Decimal.Shortest

namespace CallFlow.Toml

/-- A number with a point or an exponent. -/
inductive Floating where
  | finite (negative : Bool) (magnitude : Decimal.Binary)
  | infinite (negative : Bool)
  | notANumber
  deriving DecidableEq, Repr

def Floating.text : Floating → String
  | finite negative magnitude => (if negative then "-" else "") ++ magnitude.text
  | infinite negative => if negative then "-inf" else "inf"
  | notANumber => "NaN"

/-- A value. Of a date or a time, nothing is kept. -/
inductive Value where
  | string (text : String)
  | integer (value : Int)
  | floating (value : Floating)
  | boolean (value : Bool)
  | datetime
  | array (items : List Value)
  | table (fields : List (String × Value))

end CallFlow.Toml
