import GraphDecl.Document.Definition

/-!
What keeps the definitions of a document from making up a schema.
-/

namespace GraphDecl

def DirectiveLocation.text : DirectiveLocation → String
  | query => "query"
  | mutation => "mutation"
  | subscription => "subscription"
  | field => "field"
  | fragmentDefinition => "fragment definition"
  | fragmentSpread => "fragment spread"
  | inlineFragment => "inline fragment"
  | variableDefinition => "variable definition"
  | directiveDefinition => "directive definition"
  | schema => "schema"
  | scalar => "scalar"
  | object => "object"
  | fieldDefinition => "field definition"
  | argumentDefinition => "argument definition"
  | interface => "interface"
  | union => "union"
  | enum => "enum"
  | enumValue => "enum value"
  | inputObject => "input object"
  | inputFieldDefinition => "input field definition"

def TypeKind.text : TypeKind → String
  | scalar => "scalar"
  | object => "object"
  | interface => "interface"
  | union => "union"
  | enum => "enum"
  | inputObject => "input object"

inductive SchemaFault
  | secondSchema
  | secondRoot (operation : OperationKind)
  | secondType (name : String)
  | secondEnumValue (type value : String)
  | secondField (type field : String)
  /-- `owner` is `Type.field` or `@directive`. -/
  | secondArgumentDefinition (owner argument : String)
  | secondDirective (name : String)
  | unknownType (name : String)
  | unknownDirective (name : String)
  | misplacedDirective (name : String) (location : DirectiveLocation)
  | repeatedDirective (name : String)
  | extendsUndefined (name : String)
  | extendsOtherKind (kind : TypeKind) (name : String)
  | unknownArgument (directive argument : String)
  | secondArgument (name : String)
  | secondInputField (name : String)
  | missingArgument (directive argument : String) (type : TypeRef)
  deriving DecidableEq, Repr

def SchemaFault.message : SchemaFault → String
  | secondSchema => "Must provide only one schema definition."
  | secondRoot k => "There can be only one " ++ k.text ++ " type in schema."
  | secondType n => "There can be only one type named '" ++ n ++ "'."
  | secondEnumValue t v => "Enum value '" ++ t ++ "." ++ v ++ "' can only be defined once."
  | secondField t f => "Field '" ++ t ++ "." ++ f ++ "' can only be defined once."
  | secondArgumentDefinition o a => "Argument '" ++ o ++ "(" ++ a ++ ":)' can only be defined once."
  | secondDirective n => "There can be only one directive named '@" ++ n ++ "'."
  | unknownType n => "Unknown type '" ++ n ++ "'."
  | unknownDirective n => "Unknown directive '@" ++ n ++ "'."
  | misplacedDirective n l => "Directive '@" ++ n ++ "' may not be used on " ++ l.text ++ "."
  | repeatedDirective n => "The directive '@" ++ n ++ "' can only be used once at this location."
  | extendsUndefined n => "Cannot extend type '" ++ n ++ "' because it is not defined."
  | extendsOtherKind k n => "Cannot extend non-" ++ k.text ++ " type '" ++ n ++ "'."
  | unknownArgument d a => "Unknown argument '" ++ a ++ "' on directive '@" ++ d ++ "'."
  | secondArgument n => "There can be only one argument named '" ++ n ++ "'."
  | secondInputField n => "There can be only one input field named '" ++ n ++ "'."
  | missingArgument d a t => "Directive '@" ++ d ++ "' argument '" ++ a ++ "' of type '" ++ t.text ++
      "' is required, but it was not provided."

end GraphDecl
