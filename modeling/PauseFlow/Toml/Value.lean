namespace PauseFlow.Toml

inductive Value where
  | string (text : String)
  | integer (value : Int)
  /-- A 64-bit floating-point number, by its bits. -/
  | float (bits : UInt64)
  | boolean (value : Bool)
  /-- A date, a time of day or both, as written. -/
  | moment (text : String)
  | array (elements : List Value)
  /-- Keys are distinct and stand in the order of the document. -/
  | table (entries : List (String × Value))

/-- The entries of a table. -/
abbrev Table := List (String × Value)

end PauseFlow.Toml
