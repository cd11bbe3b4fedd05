import RelaxDoc.Proofs.Json.Printing
import RelaxDoc.Proofs.Text.Parts
import RelaxDoc.Report.Json

/-! Reading JSON reports. A reader that looks the members of objects up by their names gets the
records back. -/
namespace RelaxDoc.Report

open Json (Value)

section Readers

variable {α : Type}

/-- What is read of the member of an object with a name. -/
def field? (name : String) (read? : Value → Option α) : Value → Option α
  | .object members => (members.lookup name).bind read?
  | _ => none

/-- A string. -/
def text? : Value → Option String
  | .string text => some text
  | _ => none

/-- A string, or nothing for null. -/
def optionalText? : Value → Option (Option String)
  | .null => some none
  | .string text => some (some text)
  | _ => none

/-- A natural number. -/
def natural? : Value → Option Nat
  | .number n => if 0 ≤ n.num ∧ n.den = 1 then some n.num.toNat else none
  | _ => none

/-- The items of an array. -/
def items? (read? : Value → Option α) : Value → Option (List α)
  | .array items => items.mapM read?
  | _ => none

end Readers

/-- A use by its word. -/
def use? (value : Value) : Option Use := do
  match ← text? value with
  | "required" => return .required
  | "optional" => return .optional
  | _ => none

/-- A parameter. -/
def param? (value : Value) : Option Param :=
  return { name := ← field? "name" text? value, value := ← field? "value" text? value }

/-- One of several values. -/
def enumValue? (value : Value) : Option EnumValue :=
  return {
    value := ← field? "value" text? value
    description := ← field? "description" text? value }

/-- A type, by its kind. -/
def type? (value : Value) : Option AttributeType := do
  match ← field? "kind" text? value with
  | "primitive" =>
    return .primitive {
      name := ← field? "name" text? value
      description := ← field? "description" text? value
      params := ← field? "params" (items? param?) value }
  | "text" => return .text
  | "enum" => return .enumeration (← field? "values" (items? enumValue?) value)
  | "unknown" => return .unknown
  | _ => none

/-- The record of an attribute. -/
def attribute? (value : Value) : Option AttributeRecord :=
  return {
    name := ← field? "name" text? value
    uri := ← field? "namespace" optionalText? value
    description := ← field? "description" text? value
    use := ← field? "use" use? value
    type := ← field? "type" type? value }

/-- A reference to a child. -/
def child? (value : Value) : Option ChildRef :=
  return { id := ← field? "id" natural? value, name := ← field? "name" text? value }

/-- The record of an element. -/
def element? (value : Value) : Option ElementRecord :=
  return {
    id := ← field? "id" natural? value
    name := ← field? "name" text? value
    uri := ← field? "namespace" optionalText? value
    description := ← field? "description" text? value
    children := ← field? "children" (items? child?) value
    attributes := ← field? "attributes" (items? attribute?) value }

/-- The records of all elements. -/
def documentation? (value : Value) : Option Documentation :=
  return { elements := ← field? "elements" (items? element?) value }

theorem text?_string (text : String) : text? (Json.string text).value = some text := rfl

theorem optionalText?_optionJson (text : Option String) :
    optionalText? (optionJson text).value = some text := by
  cases text <;> rfl

theorem natural?_number (n : Nat) : natural? (Json.number n).value = some n := by
  simp [natural?, Json.value]

theorem items?_array {α : Type} {write : α → Json} {read? : Value → Option α}
    (reads : ∀ a, read? (write a).value = some a) (items : List α) :
    items? read? (Json.array (items.map write)).value = some items := by
  rw [Json.value, Json.values_eq_map, items?, List.map_map]
  exact Text.mapM_map_eq_some fun item _ => reads item

theorem lookup_namedValues (name : String) (members : List (String × Json)) :
    (Json.namedValues members).lookup name = (members.lookup name).map Json.value := by
  induction members with
  | nil => rfl
  | cons member rest ih =>
    rw [Json.namedValues, Json.namedValue, List.lookup_cons, List.lookup_cons, ih]
    split <;> rfl

theorem field?_object {α : Type} {read? : Value → Option α} {name : String} {json : Json} {a : α}
    {members : List (String × Json)} (found : members.lookup name = some json)
    (reads : read? json.value = some a) : field? name read? (Json.object members).value = some a := by
  rw [Json.value, field?, lookup_namedValues, found]
  exact reads

theorem use?_text (use : Use) : use? (Json.string use.text).value = some use := by
  cases use <;> rfl

theorem param?_paramJson (param : Param) : param? (paramJson param).value = some param := by
  have name : field? "name" text? (paramJson param).value = some param.name :=
    field?_object rfl (text?_string _)
  have value : field? "value" text? (paramJson param).value = some param.value :=
    field?_object rfl (text?_string _)
  rw [param?, name, value]
  rfl

theorem enumValue?_enumValueJson (value : EnumValue) :
    enumValue? (enumValueJson value).value = some value := by
  have text : field? "value" text? (enumValueJson value).value = some value.value :=
    field?_object rfl (text?_string _)
  have description : field? "description" text? (enumValueJson value).value = some value.description :=
    field?_object rfl (text?_string _)
  rw [enumValue?, text, description]
  rfl

theorem type?_typeJson (type : AttributeType) : type? (typeJson type).value = some type := by
  cases type with
  | primitive datatype =>
    have name : field? "name" text? (typeJson (.primitive datatype)).value = some datatype.name :=
      field?_object rfl (text?_string _)
    have description : field? "description" text? (typeJson (.primitive datatype)).value =
        some datatype.description := field?_object rfl (text?_string _)
    have params : field? "params" (items? param?) (typeJson (.primitive datatype)).value =
        some datatype.params := field?_object rfl (items?_array param?_paramJson _)
    have kind : field? "kind" text? (typeJson (.primitive datatype)).value = some "primitive" :=
      field?_object rfl (text?_string _)
    rw [type?, kind, name, description, params]
    rfl
  | text => rfl
  | enumeration values =>
    have kind : field? "kind" text? (typeJson (.enumeration values)).value = some "enum" :=
      field?_object rfl (text?_string _)
    have items : field? "values" (items? enumValue?) (typeJson (.enumeration values)).value =
        some values := field?_object rfl (items?_array enumValue?_enumValueJson _)
    rw [type?, kind, items]
    rfl
  | unknown => rfl

theorem attribute?_attributeJson (record : AttributeRecord) :
    attribute? (attributeJson record).value = some record := by
  have name : field? "name" text? (attributeJson record).value = some record.name :=
    field?_object rfl (text?_string _)
  have uri : field? "namespace" optionalText? (attributeJson record).value = some record.uri :=
    field?_object rfl (optionalText?_optionJson _)
  have description : field? "description" text? (attributeJson record).value =
      some record.description := field?_object rfl (text?_string _)
  have use : field? "use" use? (attributeJson record).value = some record.use :=
    field?_object rfl (use?_text _)
  have type : field? "type" type? (attributeJson record).value = some record.type :=
    field?_object rfl (type?_typeJson _)
  rw [attribute?, name, uri, description, use, type]
  rfl

theorem child?_childJson (child : ChildRef) : child? (childJson child).value = some child := by
  have id : field? "id" natural? (childJson child).value = some child.id :=
    field?_object rfl (natural?_number _)
  have name : field? "name" text? (childJson child).value = some child.name :=
    field?_object rfl (text?_string _)
  rw [child?, id, name]
  rfl

theorem element?_elementJson (record : ElementRecord) :
    element? (elementJson record).value = some record := by
  have id : field? "id" natural? (elementJson record).value = some record.id :=
    field?_object rfl (natural?_number _)
  have name : field? "name" text? (elementJson record).value = some record.name :=
    field?_object rfl (text?_string _)
  have uri : field? "namespace" optionalText? (elementJson record).value = some record.uri :=
    field?_object rfl (optionalText?_optionJson _)
  have description : field? "description" text? (elementJson record).value =
      some record.description := field?_object rfl (text?_string _)
  have children : field? "children" (items? child?) (elementJson record).value =
      some record.children := field?_object rfl (items?_array child?_childJson _)
  have attributes : field? "attributes" (items? attribute?) (elementJson record).value =
      some record.attributes := field?_object rfl (items?_array attribute?_attributeJson _)
  rw [element?, id, name, uri, description, children, attributes]
  rfl

theorem documentation?_documentationJson (documentation : Documentation) :
    documentation? (documentationJson documentation).value = some documentation := by
  have elements : field? "elements" (items? element?) (documentationJson documentation).value =
      some documentation.elements := field?_object rfl (items?_array element?_elementJson _)
  rw [documentation?, elements]
  rfl

/-- A JSON report loses nothing of the records. The compact and the indented report denote the same
value, no other one, and the records are read from it. -/
theorem json_recoverable (documentation : Documentation) :
    ∃ value, documentation? value = some documentation ∧
      ∀ pretty other, Json.Denotes (json pretty documentation) other ↔ other = value := by
  refine ⟨_, documentation?_documentationJson documentation, fun pretty other => ?_⟩
  cases pretty with
  | false => exact Json.denotes_compact_iff
  | true => exact Json.denotes_pretty_iff

end RelaxDoc.Report
