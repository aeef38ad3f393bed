namespace EventSheet.Toml

/-! TOML values. Dates and floats are told apart from the rest but not looked
into: nothing here is configured by one. -/

inductive Value where
  | string (text : String)
  | integer (value : Int)
  | float
  | boolean (value : Bool)
  | dateTime
  | array (items : List Value)
  | table (members : List (String × Value))

/-- Integers are signed and have 64 bits. -/
def integerInRange (value : Int) : Bool := Int64.minValue.toInt ≤ value && value ≤ Int64.maxValue.toInt

/-- The tab, printable characters and everything beyond ASCII: what comments and
strings may hold as it is. -/
def isPlain (character : Char) : Bool :=
  character = '\t' || (32 ≤ character.toNat && character.toNat ≠ 127)

end EventSheet.Toml
