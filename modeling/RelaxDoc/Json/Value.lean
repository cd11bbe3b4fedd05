/-! JSON values as far as reports need them. -/
namespace RelaxDoc

/-- A JSON value. The members of an object keep their order. -/
inductive Json where
  | null
  | number (n : Nat)
  | string (text : String)
  | array (items : List Json)
  | object (members : List (String × Json))
  deriving Repr

end RelaxDoc
