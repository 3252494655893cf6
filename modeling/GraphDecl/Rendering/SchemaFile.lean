import GraphDecl.Declaration
import GraphDecl.Rendering.Comment

/-!
The lines of the declarations that a schema file holds.
-/

namespace GraphDecl.Rendering

def memberLines (m : Member) : List String :=
  indent 2 (commentLines m.description ++ [m.name ++ ": " ++ m.type ++ ";"])

def interfaceLines (i : Interface) (description : Option String) : List String :=
  commentLines description ++ ["export interface " ++ i.name ++ " \x7b"]
  ++ i.members.flatMap memberLines ++ ["\x7d"]

/-- The alias of a field, after a namespace for its arguments if it has any. -/
def aliasLines (f : FieldAlias) : List String :=
  let arguments := match f.arguments with
    | some i =>
      if i.members.isEmpty then []
      else ["export namespace " ++ f.name ++ " \x7b"] ++ indent 2 (interfaceLines i none) ++ ["\x7d"]
    | none => []
  indent 2 (arguments ++ commentLines f.description
    ++ ["export type " ++ f.name ++ " = " ++ f.type ++ ";"])

def entityLines (e : Entity) : List String :=
  interfaceLines e.flat e.space.description ++ [""]
  ++ ["export declare namespace " ++ e.space.name ++ " \x7b"]
  ++ e.space.fields.flatMap aliasLines ++ ["\x7d"]

def enumValueLines (v : EnumValue) : List String :=
  indent 2 (commentLines v.description ++ [v.name ++ " = '" ++ v.name ++ "',"])

def declarationLines : Declaration → List String
  | .scalar name description => commentLines description ++ ["export type " ++ name ++ " = any;"]
  | .enum name values description =>
    commentLines description ++ ["export enum " ++ name ++ " \x7b"]
    ++ values.flatMap enumValueLines ++ ["\x7d"]
  | .union name types description =>
    commentLines description
    ++ ["export type " ++ name ++ " = " ++ Text.joinWith " | " types ++ ";"]
  | .entity e => entityLines e

/-- Blocks of lines with an empty line between them. -/
def paragraphs : List (List String) → List String
  | [] => []
  | [b] => b
  | b :: c :: bs => b ++ [""] ++ paragraphs (c :: bs)

/-- The banner of a file and an empty line; nothing for an empty banner. -/
def headerText : Option String → String
  | none => ""
  | some h => if h.isEmpty then "" else h ++ "\n\n"

def schemaFile (types : List Declaration) (header : Option String) : String :=
  headerText header ++ unlines (paragraphs (types.map declarationLines))

end GraphDecl.Rendering
