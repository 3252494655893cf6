import GraphDecl.Schema.FieldType

/-!
TypeScript types as trees, and the values that they admit. A type names atoms, whose values are given from
outside, and members of namespaces, whose values depend on the place where the type stands.
-/

namespace GraphDecl

/-- A value that an answer can hold. A number is given by its digits and its exponent of ten. -/
inductive Json
  | null
  | boolean (value : Bool)
  | number (digits exponent : Int)
  | string (text : String)
  | array (items : List Json)
  | object (entries : List (String × Json))

namespace TypeScript

inductive TypeTree
  | null
  | name (name : String)
  /-- The type `name` of a namespace. -/
  | member (space name : String)
  | array (element : TypeTree)
  | either (left right : TypeTree)
  | object (members : List (String × TypeTree))

namespace TypeTree

mutual

/-- The values of a type, with those of the atoms and of the members of namespaces. An object may hold more
than the members that its type has. -/
def Admits (atoms : String → Json → Prop) (scope : String → String → Json → Prop) :
    TypeTree → Json → Prop
  | null, v => v = .null
  | name n, v => atoms n v
  | member space n, v => scope space n v
  | array t, v => ∃ items, v = .array items ∧ ∀ x ∈ items, t.Admits atoms scope x
  | either t u, v => t.Admits atoms scope v ∨ u.Admits atoms scope v
  | object members, v => ∃ entries, v = .object entries ∧ AdmitsAll atoms scope members entries

def AdmitsAll (atoms : String → Json → Prop) (scope : String → String → Json → Prop) :
    List (String × TypeTree) → List (String × Json) → Prop
  | [], _ => True
  | (n, t) :: members, entries =>
    (∃ v, entries.lookup n = some v ∧ t.Admits atoms scope v) ∧ AdmitsAll atoms scope members entries

end

theorem admitsAll_iff {atoms : String → Json → Prop} {scope : String → String → Json → Prop}
    {members : List (String × TypeTree)} {entries : List (String × Json)} :
    AdmitsAll atoms scope members entries ↔
      ∀ m ∈ members, ∃ v, entries.lookup m.1 = some v ∧ m.2.Admits atoms scope v := by
  induction members with
  | nil => simp [AdmitsAll]
  | cons m members ih =>
    obtain ⟨n, t⟩ := m
    simp [AdmitsAll, ih]

end TypeTree

end TypeScript

/-! ### Layers -/

/-- The values of a GraphQL type whose named type has the values `bottom`: a list layer takes arrays, and a
layer that is not marked non-null takes `null` besides. -/
def FieldType.Admits (bottom : Json → Prop) (nullable : Bool) : FieldType → Json → Prop
  | .named _, v => (nullable = true ∧ v = .null) ∨ bottom v
  | .list t, v =>
    (nullable = true ∧ v = .null) ∨ ∃ items, v = .array items ∧ ∀ x ∈ items, t.Admits bottom true x
  | .nonNull t, v => t.Admits bottom false v

end GraphDecl
