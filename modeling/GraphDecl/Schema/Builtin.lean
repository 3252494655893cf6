import GraphDecl.Scalar
import GraphDecl.Schema.Basic

/-!
The types of a schema that need no definition: the built-in scalars, and the types in which a schema
describes itself.
-/

namespace GraphDecl.Builtin

private def required (name : String) : FieldType := .nonNull (.named name)

private def optional (name : String) : FieldType := .named name

private def listOf (name : String) : FieldType := .list (.nonNull (.named name))

private def field (name : String) (type : FieldType) : Field := ⟨none, name, [], type⟩

/-- A list field that can leave out what is deprecated. -/
private def filtered (name : String) (type : FieldType) : Field :=
  ⟨none, name, [⟨none, "includeDeprecated", .named "Boolean"⟩], type⟩

private def enumOf (names : List String) : TypeContent := .enum (names.map (⟨none, ·⟩))

def introspection : List NamedType :=
  [ ⟨none, "__Schema", .object
      [ field "description" (optional "String")
      , field "types" (.nonNull (listOf "__Type"))
      , field "queryType" (required "__Type")
      , field "mutationType" (optional "__Type")
      , field "subscriptionType" (optional "__Type")
      , filtered "directives" (.nonNull (listOf "__Directive")) ]⟩
  , ⟨none, "__Directive", .object
      [ field "name" (required "String")
      , field "description" (optional "String")
      , field "isRepeatable" (required "Boolean")
      , field "locations" (.nonNull (listOf "__DirectiveLocation"))
      , filtered "args" (.nonNull (listOf "__InputValue"))
      , field "isDeprecated" (required "Boolean")
      , field "deprecationReason" (optional "String") ]⟩
  , ⟨none, "__DirectiveLocation", enumOf
      [ "QUERY", "MUTATION", "SUBSCRIPTION", "FIELD", "FRAGMENT_DEFINITION", "FRAGMENT_SPREAD"
      , "INLINE_FRAGMENT", "VARIABLE_DEFINITION", "SCHEMA", "SCALAR", "OBJECT", "FIELD_DEFINITION"
      , "ARGUMENT_DEFINITION", "INTERFACE", "UNION", "ENUM", "ENUM_VALUE", "INPUT_OBJECT"
      , "INPUT_FIELD_DEFINITION", "DIRECTIVE_DEFINITION" ]⟩
  , ⟨none, "__Type", .object
      [ field "kind" (required "__TypeKind")
      , field "name" (optional "String")
      , field "description" (optional "String")
      , field "specifiedByURL" (optional "String")
      , filtered "fields" (listOf "__Field")
      , field "interfaces" (listOf "__Type")
      , field "possibleTypes" (listOf "__Type")
      , filtered "enumValues" (listOf "__EnumValue")
      , filtered "inputFields" (listOf "__InputValue")
      , field "ofType" (optional "__Type")
      , field "isOneOf" (optional "Boolean") ]⟩
  , ⟨none, "__TypeKind", enumOf
      [ "SCALAR", "OBJECT", "INTERFACE", "UNION", "ENUM", "INPUT_OBJECT", "LIST", "NON_NULL" ]⟩
  , ⟨none, "__Field", .object
      [ field "name" (required "String")
      , field "description" (optional "String")
      , filtered "args" (.nonNull (listOf "__InputValue"))
      , field "type" (required "__Type")
      , field "isDeprecated" (required "Boolean")
      , field "deprecationReason" (optional "String") ]⟩
  , ⟨none, "__InputValue", .object
      [ field "name" (required "String")
      , field "description" (optional "String")
      , field "type" (required "__Type")
      , field "defaultValue" (optional "String")
      , field "isDeprecated" (required "Boolean")
      , field "deprecationReason" (optional "String") ]⟩
  , ⟨none, "__EnumValue", .object
      [ field "name" (required "String")
      , field "description" (optional "String")
      , field "isDeprecated" (required "Boolean")
      , field "deprecationReason" (optional "String") ]⟩ ]

def scalar (s : Scalar) : NamedType := ⟨none, s.name, .scalar⟩

def types : List NamedType := Scalar.all.map scalar ++ introspection

/-- Names that no definition can take: a definition of that name leaves the built-in type. -/
def reserved : List String := types.map (·.name)

end GraphDecl.Builtin
