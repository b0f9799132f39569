/-! JSON values. Whole numbers that fit into 64 bits, with or without a sign,
are kept exactly; every other number is the floating point number it was read
as. Objects keep the order of their fields. -/
namespace Reshape

/-- A JSON value. -/
inductive Json where
  | null
  | boolean (value : Bool)
  | integer (value : Int)
  | decimal (value : Float)
  | text (value : String)
  | list (items : List Json)
  | object (fields : List (String × Json))
deriving Repr, Inhabited

end Reshape
