import KnotSchema.Python.Value

/-! The declared side of a schema: type descriptors, the schema classes that carry them, and
Python's attribute lookup on those classes and on their instances, which the construction
protocol probes to decide where each field's value comes from. -/
namespace KnotSchema

namespace Scalar

/-- The constant as a Python value. -/
def toVal : Scalar → PyVal
  | none => .none
  | bool b => .bool b
  | int i => .int i
  | str s => .str s

/-- `repr` of the constant, as `typing.Literal[...]` prints it. -/
def repr (c : Scalar) : String :=
  match c with
  | str s => "'" ++ s ++ "'"
  | _ => c.toVal.toStr

end Scalar

/-- A field's declared type. `leaf` is a `CustomValueType` subclass, `schema` a nested
`SchemaNode` subclass, both named and resolved through the registry so that schemas may refer
to each other; `other` is any class the validator has no case for. -/
inductive Descriptor where
  | noneType
  | int
  | str
  | bool
  | float
  | literal (c : Scalar)
  | union (variants : List Descriptor)
  | list (item : Descriptor)
  | dict (key value : Descriptor)
  | tuple (items : List Descriptor)
  | enum (cls : String)
  | leaf (cls : String)
  | schema (cls : String)
  | other (cls : String)
  deriving Repr

namespace Descriptor

mutual
/-- How a descriptor prints inside another one's brackets. -/
def argRepr : Descriptor → String
  | noneType => "NoneType"
  | int => "int"
  | str => "str"
  | bool => "bool"
  | float => "float"
  | literal c => "typing.Literal[" ++ c.repr ++ "]"
  | union [noneType, t] => "typing.Optional[" ++ t.argRepr ++ "]"
  | union [t, noneType] => "typing.Optional[" ++ t.argRepr ++ "]"
  | union vs => "typing.Union[" ++ argReprs vs ++ "]"
  | list t => "typing.List[" ++ t.argRepr ++ "]"
  | dict k v => "typing.Dict[" ++ k.argRepr ++ ", " ++ v.argRepr ++ "]"
  | tuple ts => "typing.Tuple[" ++ argReprs ts ++ "]"
  | enum c => c
  | leaf c => c
  | schema c => c
  | other c => c

/-- Arguments of a generic, separated by `", "`. -/
def argReprs : List Descriptor → String
  | [] => ""
  | t :: ts => t.argRepr ++ (if ts.isEmpty then "" else ", " ++ argReprs ts)
end

/-- `str(cls)` in the error messages: a class prints as `<class '...'>`, a generic as itself. -/
def toStr (d : Descriptor) : String :=
  match d with
  | literal _ | union _ | list _ | dict _ _ | tuple _ => d.argRepr
  | _ => "<class '" ++ d.argRepr ++ "'>"

/-- Modelled from the spec: `is_optional` lives in `utils/types.py`, which is not among the
sources, and the spec (§2, "two-variant nothing-or-T unions are treated as Optional(T)") gives
its meaning: a two-variant union one of whose variants is `NoneType`. -/
def isOptional : Descriptor → Bool
  | union [noneType, _] => true
  | union [_, noneType] => true
  | _ => false

end Descriptor

/-- A class attribute: a plain value, or a function and its number of parameters. -/
inductive Attr where
  | value (v : PyVal)
  | method (params : Nat) (body : PyVal → Except PyErr PyVal)

/-- The attribute as a value: a function reads as a function object. -/
def Attr.toValue (qualname : String) : Attr → PyVal
  | value v => v
  | method _ _ => .func qualname

/-- A `CustomValueType` subclass. Its constructor `cls(obj, object_path=...)` does the leaf's
own parsing and validation; the new value is known by what `str()` and `int()` give for it. -/
structure LeafType where
  create : PyVal → String → Except PyErr (String × Option Int)

/-- A `SchemaNode` subclass as its author declares it: its own annotations in declaration
order, the class namespace written by the author (own and inherited, `SchemaNode`'s members
aside), and the class `_PREVIOUS_SCHEMA` names. An annotations dict has no repeated name. -/
structure SchemaClass where
  name : String
  annotations : List (String × Descriptor)
  attrs : List (String × Attr)
  previous : Option String
  annotations_nodup : (annotations.map Prod.fst).Nodup

/-- The schema classes by name, as nested-schema descriptors and `_PREVIOUS_SCHEMA` refer to
them, and the custom leaf types. -/
structure Registry where
  schema? : String → Option SchemaClass
  leaf : String → LeafType

/-- The registry of a module that declares no schema class and no custom type. -/
def Registry.empty : Registry :=
  ⟨fun _ => none, fun n => ⟨fun _ _ => .error (.name ("name '" ++ n ++ "' is not defined"))⟩⟩

/-- Modelled from the spec: `is_internal_field_name` lives in `utils/types.py`, which is not
among the sources. An internal name is one with a leading underscore, the prefix the spec's
transformation entry points and the module's own members carry. -/
def isInternalFieldName (name : String) : Bool := name.toList.head? == some '_'

/-- The message every `_Untouchable` access raises. -/
def untouchableMessage : String := "You are not supposed to access object 'self'."

/-- `SchemaNode._PREVIOUS_SCHEMA` as `getattr` finds it: `None`, or a class, which called on
the untouchable placeholder raises at the placeholder's first use. -/
def previousAttr : Option String → Attr
  | none => .value .none
  | some _ => .method 2 fun _ => .error (.runtime untouchableMessage)

/-- The methods `SchemaNode` defines that a field's name can reach, by parameter count. -/
def schemaNodeMethod : String → Option Attr
  | "_validate" => some (.method 1 fun _ => .ok .none)
  | "_assign_default" => some (.method 4 fun _ => .ok .none)
  | "_assign_field" => some (.method 5 fun _ => .ok .none)
  | "_assign_fields" => some (.method 3 fun _ => .ok .none)
  | "_get_converted_value" => some (.method 4 fun _ => .ok .none)
  | "get_unparsed_data" => some (.method 1 fun _ => .ok .none)
  | _ => none

namespace SchemaClass

/-- `getattr(cls, name)`: the author's namespace first, then `SchemaNode`'s members. -/
def classAttr (cls : SchemaClass) (name : String) : Option Attr :=
  if name = "_PREVIOUS_SCHEMA" then some (previousAttr cls.previous)
  else match cls.attrs.lookup name with
    | some a => some a
    | none => schemaNodeMethod name

/-- `getattr(inst, name)` on an instance of `cls` whose instance dict holds `_source` and the
fields assigned so far. -/
def instanceAttr (cls : SchemaClass) (attrs : List (String × PyVal)) (source : PyVal)
    (name : String) : Option PyVal :=
  if name = "_source" then some source
  else match attrs.lookup name with
    | some v => some v
    | none => (cls.classAttr name).map (Attr.toValue (cls.name ++ "." ++ name))

/-- `hasattr(inst, name)`. -/
def hasAttr (cls : SchemaClass) (attrs : List (String × PyVal)) (source : PyVal)
    (name : String) : Bool :=
  (cls.instanceAttr attrs source name).isSome

/-- The own fields the construction assigns: the annotations whose names are not internal. -/
def fields (cls : SchemaClass) : List (String × Descriptor) :=
  cls.annotations.filter fun f => !isInternalFieldName f.1

end SchemaClass

end KnotSchema
