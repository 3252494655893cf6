import GraphDecl.Document.Excerpt
import GraphDecl.Document.ValueText

/-!
Why definitions that keep the rules cannot be put together to a schema.
-/

namespace GraphDecl

/-- What is wrong with an argument of a built-in directive. -/
inductive ArgumentFault
  | missing (argument : String) (type : TypeRef)
  | null (argument : String) (type : TypeRef)
  | misfit (argument : String) (value : Value)
  deriving Repr

def ArgumentFault.message : ArgumentFault → String
  | missing n t => "Argument '" ++ n ++ "' of required type '" ++ t.text ++ "' was not provided."
  | null n t => "Argument '" ++ n ++ "' of non-null type '" ++ t.text ++ "' must not be null."
  | misfit n v => "Argument '" ++ n ++ "' has invalid value " ++ v.text ++ "."

inductive ResolutionFault (Place : Type)
  | argument (fault : ArgumentFault) (place : Place)
  /-- A field of an object or interface cannot have an input type. -/
  | fieldType
  /-- An argument can have an input type only. -/
  | argumentType
  /-- So can a field of an input type. -/
  | inputFieldType
  /-- A default value for something whose type is none for input. -/
  | defaultType (type : String)
  /-- A type implements something that is no interface. -/
  | interfaces (type : String)
  /-- A union of something that is no object type. -/
  | members (union : String)
  /-- The default values of input types need one another. -/
  | endless
  /-- The fields of a type cannot be resolved. -/
  | fields (type : String) (cause : ResolutionFault Place)
  deriving Repr

namespace ResolutionFault

def map {α β : Type} (f : α → β) : ResolutionFault α → ResolutionFault β
  | argument e place => .argument e (f place)
  | fieldType => .fieldType
  | argumentType => .argumentType
  | inputFieldType => .inputFieldType
  | defaultType t => .defaultType t
  | interfaces t => .interfaces t
  | members u => .members u
  | endless => .endless
  | fields t cause => .fields t (cause.map f)

def isArgument {α : Type} : ResolutionFault α → Bool
  | argument .. => true
  | fields _ cause => cause.isArgument
  | _ => false

/-- The place that is at fault, if the fault is not that the fields of a type cannot be resolved. -/
def place? {α : Type} : ResolutionFault α → Option α
  | argument _ place => some place
  | _ => none

mutual

/-- The message without the place; a cause is told with its place. -/
def message (text : String) : ResolutionFault Location → String
  | argument e _ => e.message
  | fieldType => "Field type must be an output type."
  | argumentType => "Argument type must be a GraphQL input type."
  | inputFieldType => "Input field type must be a GraphQL input type."
  | defaultType t => "Unexpected input type: " ++ t ++ "."
  | interfaces t =>
    t ++ " interfaces must be specified as a collection of GraphQLInterfaceType instances."
  | members u => u ++ " types must be specified as a collection of GraphQLObjectType instances."
  | endless => "maximum recursion depth exceeded"
  | fields t cause => t ++ " fields cannot be resolved. " ++ report text cause

def report (text : String) (fault : ResolutionFault Location) : String :=
  match fault with
  | argument e place => Location.report text e.message place
  | f => message text f

end

end ResolutionFault

end GraphDecl
