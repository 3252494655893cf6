import GraphDecl.Operation
import GraphDecl.Rendering.SchemaFile

/-!
The file with the declarations for operations. Result fields become nested namespaces, in which every
composite field has a namespace for what is below it and an object type that points into it.
-/

namespace GraphDecl.Rendering

/-! ### Template literals -/

/-- Escapes the backslash, the back quote (U+0060) and the dollar sign that would open a
substitution. -/
def escapeTemplate : List Char → List Char
  | [] => []
  | '$' :: '\x7b' :: r => '\\' :: '$' :: '\x7b' :: escapeTemplate r
  | c :: r => if c = '\\' ∨ c = '\x60' then '\\' :: c :: escapeTemplate r else c :: escapeTemplate r

def templateText (s : String) : String := String.ofList (escapeTemplate s.toList)

/-! ### Result fields -/

/-- The object type of a composite field inside the layers of its type. -/
def compositeText (members : List Member) (type : FieldType) : String :=
  let object := Text.joinWith " " (members.map fun m => m.name ++ ": " ++ m.type ++ ";")
  type.wrap true ("\x7b " ++ object ++ " \x7d")

mutual

def resultFieldLines : ResultField → List String
  | .leaf name type => ["export type " ++ name ++ " = " ++ type.text ++ ";"]
  | .composite name members type fields =>
    ["export namespace " ++ name ++ " \x7b"] ++ indent 2 (resultFieldsLines fields)
    ++ ["\x7d", "export type " ++ name ++ " = " ++ compositeText members type ++ ";"]

def resultFieldsLines : List ResultField → List String
  | [] => []
  | f :: fs => resultFieldLines f ++ resultFieldsLines fs

end

/-! ### Operations -/

/-- The text of the operation is one entry here, also if it has several lines. -/
def operationLines (op : Operation) : List String :=
  ["export const " ++ op.name ++ " = \x60" ++ templateText op.signature ++ "\x60;", ""]
  ++ interfaceLines op.selection none ++ [""]
  ++ ["export declare namespace " ++ op.space.name ++ " \x7b"]
  ++ indent 2 (interfaceLines op.space.arguments none ++ resultFieldsLines op.space.fields)
  ++ ["\x7d"]

/-- The file with the declarations for operations, which takes its types from `./module`. -/
def operationsFile (c : Compilation) (module : String) (header : Option String) : String :=
  headerText header ++ Imports.statement c.imports module
  ++ unlines (paragraphs (c.operations.map operationLines))

end GraphDecl.Rendering
