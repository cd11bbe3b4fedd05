/-! What the documentation says about elements and attributes. -/
namespace RelaxDoc

/-- Whether an attribute has to be given. -/
inductive Use where
  | required
  | optional
  deriving DecidableEq, Repr

/-- The word for a use. -/
def Use.text : Use → String
  | .required => "required"
  | .optional => "optional"

/-- A parameter of a datatype. -/
structure Param where
  name : String
  value : String
  deriving DecidableEq, Repr

/-- A datatype with its parameters in document order. -/
structure Datatype where
  name : String
  description : String
  params : List Param
  deriving DecidableEq, Repr

/-- One of several values. -/
structure EnumValue where
  value : String
  description : String
  deriving DecidableEq, Repr

/-- What an attribute may hold. -/
inductive AttributeType where
  | primitive (datatype : Datatype)
  | text
  | enumeration (values : List EnumValue)
  | unknown
  deriving DecidableEq, Repr

/-- The name of a type, if it is known. -/
def AttributeType.name? : AttributeType → Option String
  | .primitive datatype => some datatype.name
  | .text => some "text"
  | .enumeration _ => some "enum"
  | .unknown => none

/-- The description of a type. -/
def AttributeType.description : AttributeType → String
  | .primitive datatype => datatype.description
  | _ => ""

/-- What the documentation says about an attribute. -/
structure AttributeRecord where
  name : String
  uri : Option String
  description : String
  use : Use
  type : AttributeType
  deriving DecidableEq, Repr

/-- A child element, by the position of its record and by its name. -/
structure ChildRef where
  id : Nat
  name : String
  deriving DecidableEq, Repr

/-- What the documentation says about an element. -/
structure ElementRecord where
  id : Nat
  name : String
  uri : Option String
  description : String
  children : List ChildRef
  attributes : List AttributeRecord
  deriving DecidableEq, Repr

/-- The records of all elements. -/
structure Documentation where
  elements : List ElementRecord
  deriving DecidableEq, Repr

namespace Documentation

/-- The record at the position of its id. -/
def get? (documentation : Documentation) (id : Nat) : Option ElementRecord :=
  documentation.elements[id]?.filter fun record => record.id = id

/-- The records of elements with a name. -/
def named (documentation : Documentation) (name : String) : List ElementRecord :=
  documentation.elements.filter fun record => record.name = name

/-- The number of records. -/
def size (documentation : Documentation) : Nat := documentation.elements.length

end Documentation

end RelaxDoc
