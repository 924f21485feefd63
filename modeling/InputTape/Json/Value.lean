/-! JSON values. The members of an object keep their order. -/

set_option autoImplicit false

namespace InputTape

/-- A number of a document: an integer that fits into 64 bits, with or without a sign, or a
double. -/
inductive JsonNumber where
  | integer (n : Int)
  | real (x : Float)
  deriving BEq, Repr

inductive Json where
  | null
  | bool (value : Bool)
  | number (value : JsonNumber)
  | string (text : String)
  | array (items : List Json)
  | object (members : List (String × Json))
  deriving Repr

namespace Json

def integer (n : Int) : Json := .number (.integer n)

def real (x : Float) : Json := .number (.real x)

end Json
end InputTape
