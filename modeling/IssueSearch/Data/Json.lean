import IssueSearch.Data.Value
import IssueSearch.Json.Decode

/-! # Types and values as JSON

    * A type is an object whose member `type` names it.
    * A value is an object with its `kind` and, under `value`, what it holds.

    Both are read from the bottom up with `Json.fold`.  A type is read as a
    whole, and so is what a value holds if it stands before the kind; elsewhere
    a part that nobody looks for may be unreadable. -/

namespace IssueSearch

open Calendar (DateTime)

/-! ## Types -/

namespace DataType

/-- The JSON form of a type. -/
def toJson : DataType → Json
  | any              => .obj [("type", .str "any")]
  | bool             => .obj [("type", .str "bool")]
  | int16            => .obj [("type", .str "int16")]
  | int32            => .obj [("type", .str "int32")]
  | int64            => .obj [("type", .str "int64")]
  | float            => .obj [("type", .str "float")]
  | string           => .obj [("type", .str "string")]
  | date             => .obj [("type", .str "date")]
  | record name      => .obj [("type", .str "record"), ("name", .str name)]
  | array element    => .obj [("type", .str "array"), ("element", element.toJson)]
  | nullable inner   => .obj [("type", .str "nullable"), ("inner", inner.toJson)]
  | queryable entity => .obj [("type", .str "queryable"), ("entity", .str entity)]
  | sequence element => .obj [("type", .str "sequence"), ("element", element.toJson)]

/-- A part of a document and the type it reads as. -/
structure Reading where
  json : Json
  type : Decoded DataType

/-- The type of an object with the given members. -/
def ofMembers (members : List (String × Reading)) : Decoded DataType := do
  let text (key : String) : Decoded String := do (← Decoded.member key members).json.asStr
  let inner (key : String) : Decoded DataType := do (← Decoded.member key members).type
  match ← text "type" with
  | "any"       => .ok any
  | "bool"      => .ok bool
  | "int16"     => .ok int16
  | "int32"     => .ok int32
  | "int64"     => .ok int64
  | "float"     => .ok float
  | "string"    => .ok string
  | "date"      => .ok date
  | "record"    => .ok (record (← text "name"))
  | "array"     => .ok (array (← inner "element"))
  | "nullable"  => .ok (nullable (← inner "inner"))
  | "queryable" => .ok (queryable (← text "entity"))
  | "sequence"  => .ok (sequence (← inner "element"))
  | other       => .error (.unknown "type" other)

/-- Reads one part, given what the parts below it read as. -/
def readPart (j : Json) (_ : List Reading) (members : List (String × Reading)) : Reading :=
  { json := j,
    type := match j with
      | .obj _ => ofMembers members
      | _      => .error (.expected "a type") }

/-- Reads a type. -/
def ofJson (j : Json) : Decoded DataType := do
  ((← j.asReadable).fold readPart).type

end DataType

/-! ## Values -/

/-- A date-time in interchange form. -/
def Calendar.DateTime.ofJson (j : Json) : Decoded DateTime := do
  match DateTime.read? (← j.asStr) with
  | some d => .ok d
  | none   => .error (.expected "a date and time")

namespace Value

mutual

/-- The JSON form of a value. -/
def toJson : Value → Json
  | null          => .obj [("kind", .str "null")]
  | bool b        => .obj [("kind", .str "bool"), ("value", .bool b)]
  | int n         => .obj [("kind", .str "int"), ("value", .int n.toInt)]
  | float x       => .obj [("kind", .str "float"), ("value", .float x)]
  | str s         => .obj [("kind", .str "str"), ("value", .str s)]
  | date d        => .obj [("kind", .str "date"), ("value", .str d.interchange)]
  | array items   => .obj [("kind", .str "array"), ("value", .arr (itemsToJson items))]
  | record typeName display fields =>
    .obj [("kind", .str "record"),
      ("value", .obj (("type_name", .str typeName) ::
        ((match display with
          | some text => [("display", .str text)]
          | none      => []) ++
        [("fields", .obj (fieldsToJson fields))])))]
  | source entity => .obj [("kind", .str "source"), ("value", .obj [("entity", .str entity)])]

/-- The JSON forms of all items. -/
def itemsToJson : List Value → List Json
  | []           => []
  | item :: rest => item.toJson :: itemsToJson rest

/-- The JSON forms of all fields. -/
def fieldsToJson : List (String × Value) → List (String × Json)
  | []                   => []
  | (name, value) :: rest => (name, value.toJson) :: fieldsToJson rest

end

/-- A part of a document and what it reads as. -/
structure Reading where
  json   : Json
  /-- The part as a value. -/
  value  : Decoded Value
  /-- The part as a list of values. -/
  items  : Decoded (List Value)
  /-- The part as the fields of a record. -/
  fields : Decoded (List (String × Value))
  /-- The part as a record. -/
  record : Decoded Record

/-- Does the content of a value stand before its kind? -/
def contentFirst (members : List (String × Reading)) : Bool :=
  (members.find? fun m => m.1 == "kind" || m.1 == "value").any fun m => m.1 == "value"

/-- The member that holds the content of a value, if there is one. -/
def contentOfMembers (members : List (String × Reading)) : Decoded (Option Reading) := do
  match ← Decoded.member? "value" members with
  | some content =>
    if contentFirst members && !content.json.isReadable then .error .unreadable
    else .ok (some content)
  | none => .ok none

/-- The value of an object with the given members. -/
def ofMembers (members : List (String × Reading)) : Decoded Value := do
  let kind ← (← Decoded.member "kind" members).json.asStr
  let content? ← contentOfMembers members
  if kind = "null" then
    match content?.map Reading.json with
    | none | some .null => .ok null
    | _                 => .error (.expected "null")
  else
    match content? with
    | none => .error (.missing "value")
    | some content =>
      match kind with
      | "bool"   => .ok (bool (← content.json.asBool))
      | "int"    => .ok (int (← content.json.asInt64))
      | "float"  => .ok (float (← content.json.asFloat))
      | "str"    => .ok (str (← content.json.asStr))
      | "date"   => .ok (date (← DateTime.ofJson content.json))
      | "array"  => .ok (array (← content.items))
      | "record" => .ok (← content.record).toValue
      | "source" =>
        .ok (source (← (← Decoded.member "entity" (← content.json.asObj)).asStr))
      | other    => .error (.unknown "kind" other)

/-- The record of an object with the given members. -/
def recordOfMembers (members : List (String × Reading)) : Decoded Record := do
  let typeName ← (← Decoded.member "type_name" members).json.asStr
  let display ← Decoded.memberOr "display" none (fun r => r.json.asOption Json.asStr) members
  let fields ← Decoded.memberOr "fields" [] Reading.fields members
  .ok { typeName := typeName, display := display, fields := fields }

/-- The fields that the members of an object give. -/
def fieldsOfMembers : List (String × Reading) → Decoded (List (String × Value))
  | [] => .ok []
  | (name, r) :: rest => do
    let value ← r.value
    let others ← fieldsOfMembers rest
    .ok ((name, value) :: others)

/-- Reads one part, given what the parts below it read as. -/
def readPart (j : Json) (items : List Reading) (members : List (String × Reading)) : Reading :=
  match j with
  | .arr _ =>
    { json := j, value := .error (.expected "a value"),
      items := Decoded.sequence (items.map Reading.value),
      fields := .error (.expected "an object"), record := .error (.expected "a record") }
  | .obj _ =>
    { json := j, value := ofMembers members, items := .error (.expected "an array"),
      fields := (fieldsOfMembers members).map sortFields, record := recordOfMembers members }
  | _ =>
    { json := j, value := .error (.expected "a value"), items := .error (.expected "an array"),
      fields := .error (.expected "an object"), record := .error (.expected "a record") }

/-- Reads a value. -/
def ofJson (j : Json) : Decoded Value :=
  (j.fold readPart).value

end Value

/-- The JSON form of a record. -/
def Record.toJson (r : Record) : Json :=
  .objOf [("type_name", some (.str r.typeName)), ("display", r.display.map .str),
    ("fields", some (.obj (Value.fieldsToJson r.fields)))]

/-- Reads a record. -/
def Record.ofJson (j : Json) : Decoded Record :=
  (j.fold Value.readPart).record

end IssueSearch
