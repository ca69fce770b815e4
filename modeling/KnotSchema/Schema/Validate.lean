import KnotSchema.Python.Dict
import KnotSchema.Schema.Descriptor

/-! `_validated_object_type` and the `SchemaNode` construction protocol of
`utils/modelling.py`. The two call each other: validating against a nested schema constructs
it, and constructing a schema validates each field. One step of the model is written against a
record `Calls` of the two recursive calls, and `calls` iterates it on a fuel count; a run that
uses up its fuel ends in `PyErr.outOfFuel`, which no `except` clause catches. -/
namespace KnotSchema

/-- The two recursive entry points: `_validated_object_type(cls, obj, object_path=...)` and
`cls(source, object_path=...)` for a schema class `cls`. -/
structure Calls where
  validate : Descriptor → PyVal → String → Except PyErr PyVal
  init : SchemaClass → PyVal → String → Except PyErr PyVal

/-- `is_obj_type(obj, cls)` for a class: `type(obj) == cls`. -/
def isObjType (obj : PyVal) (cls : String) : Bool := obj.typeName == cls

/-- The `Type ... cannot be parsed` error of the final `else`. -/
def cannotParse (cls : Descriptor) (path : String) : PyErr :=
  .schema ("Type " ++ cls.toStr ++ " cannot be parsed. This is a implementation error. " ++
    "Please fix your types in the class or improve the parser/validator.") path

/-- `getattr(inst, name)` on a schema instance, through its class when the registry knows it. -/
def nodeAttr (reg : Registry) (cls : String) (attrs : List (String × PyVal)) (source : PyVal)
    (name : String) : Option PyVal :=
  match reg.schema? cls with
  | some c => c.instanceAttr attrs source name
  | none => if name = "_source" then some source else attrs.lookup name

/-- `source[name]` where `name in source` holds: the key's value in a parsed tree, or the
attribute of a schema instance. `none` is `name not in source`. -/
def sourceGet (reg : Registry) (source : PyVal) (name : String) : Option PyVal :=
  match source with
  | .dict es => (es.find? fun e => e.1.pyEq (.str name)).map Prod.snd
  | .node cls attrs src => nodeAttr reg cls attrs src name
  | _ => none

section Validator

variable (reg : Registry) (c : Calls)

/-- The `Union` branch: each variant in declared order, a `SchemaException` moving on to the
next; any other exception ends the loop. -/
def unionVariants (cls : Descriptor) (obj : PyVal) (path : String) :
    List Descriptor → Except PyErr PyVal
  | [] => .error (.schema ("Union " ++ cls.toStr ++
      " could not be parsed - parsing of all variants failed.") path)
  | v :: vs =>
      match c.validate v obj path with
      | .error (.schema _ _) => unionVariants cls obj path vs
      | r => r

/-- The items of a list comprehension, each validated against `item`. -/
def validateItems (item : Descriptor) (path : String) : List PyVal → Except PyErr (List PyVal)
  | [] => .ok []
  | v :: vs => do
      let r ← c.validate item v path
      let rs ← validateItems item path vs
      pure (r :: rs)

/-- The pairs `zip(types, obj)` yields, each item validated against its descriptor. -/
def validatePairs (path : String) : List (Descriptor × PyVal) → Except PyErr (List PyVal)
  | [] => .ok []
  | (t, v) :: ps => do
      let r ← c.validate t v path
      let rs ← validatePairs path ps
      pure (r :: rs)

/-- The dict comprehension over `obj.items()`: each key validated, then its value, then the
pair stored, which hashes the validated key. -/
def validateEntries (key value : Descriptor) (path : String) :
    List (PyVal × PyVal) → List (PyVal × PyVal) → Except PyErr (List (PyVal × PyVal))
  | acc, [] => .ok acc
  | acc, (k, v) :: es => do
      let k' ← c.validate key k (path ++ " @ key " ++ k.toStr)
      let v' ← c.validate value v (path ++ " @ value for key " ++ k.toStr)
      if k'.hashable then validateEntries key value path (dictSet acc k' v') es
      else .error (.type ("unhashable type: '" ++ k'.unhashableName ++ "'"))

/-- The `Dict[K,V]` branch. Its `except AttributeError` covers the whole comprehension. -/
def validateDict (key value : Descriptor) (obj : PyVal) (path : String) :
    Except PyErr PyVal :=
  let built : Except PyErr (List (PyVal × PyVal)) :=
    match obj with
    | .dict es => validateEntries c key value path [] es
    | _ => .error (.attribute ("'" ++ obj.typeName ++ "' object has no attribute 'items'"))
  match built with
  | .ok d => .ok (.dict d)
  | .error (.attribute _) => .error (.schema
      ("Expected dict-like object, but failed to access its .items() method. Value was " ++
        obj.toStr) path)
  | .error e => .error e

/-- The `List[T]` branch: iterating `obj`, whatever it is. -/
def validateList (item : Descriptor) (obj : PyVal) (path : String) : Except PyErr PyVal :=
  match obj.iterItems with
  | some items => .list <$> validateItems c item (path ++ "[]") items
  | none => .error obj.iterFailure

/-- The `Tuple[...]` branch: `zip` pairs the descriptors with the items and stops at the
shorter; a schema instance fails only once `zip` asks it for an item. -/
def validateTuple (types : List Descriptor) (obj : PyVal) (path : String) :
    Except PyErr PyVal :=
  match obj.iterItems with
  | some items => .tuple <$> validatePairs c path (types.zip items)
  | none =>
      match obj with
      | .node .. => if types.isEmpty then .ok (.tuple []) else .error obj.iterFailure
      | _ => .error obj.iterFailure

/-- The `int` branch: an `int`, or a custom value converted by `int()`; never a `bool`. -/
def validateInt (obj : PyVal) (path : String) : Except PyErr PyVal :=
  match obj with
  | .int i => .ok (.int i)
  | .custom n _ i =>
      match i with
      | some i => .ok (.int i)
      | none => .error (.type ("int() argument must be a string, a bytes-like object or a " ++
          "real number, not '" ++ n ++ "'"))
  | _ => .error (.schema ("Expected int, found " ++ obj.typeRepr) path)

/-- The `str` branch: a string, an integer or a custom value, by `str()`; a `bool` gets its
own message. -/
def validateStr (obj : PyVal) (path : String) : Except PyErr PyVal :=
  match obj with
  | .str s => .ok (.str s)
  | .int i => .ok (.str (toString i))
  | .custom _ t _ => .ok (.str t)
  | .bool _ => .error (.schema ("Expected str, found bool. Be careful, that YAML parsers " ++
      "consider even \"no\" and \"yes\" as a bool. Search for the Norway Problem for more " ++
      "details. And please use quotes explicitly.") path)
  | _ => .error (.schema ("Expected str (or number that would be cast to string), but found " ++
      "type " ++ obj.typeRepr) path)

/-- The branches after the `None` check, for an `obj` that is not `None`. -/
def validateValue (cls : Descriptor) (obj : PyVal) (path : String) : Except PyErr PyVal :=
  match cls with
  | .int => validateInt obj path
  | .str => validateStr obj path
  | .bool =>
      match obj with
      | .bool b => .ok (.bool b)
      | _ => .error (.schema ("Expected bool, found " ++ obj.typeRepr) path)
  | .float => .error (.notImplemented ("Floating point values are not supported in the " ++
      "parser. Please implement them and be careful with type coercions"))
  | .literal e =>
      if obj.pyEq e.toVal then .ok obj
      else .error (.schema ("Literal " ++ cls.toStr ++ " is not matched with the value " ++
        obj.toStr) path)
  | .dict k v => validateDict c k v obj path
  | .enum e =>
      match obj with
      | .enum e' _ => if e' = e then .ok obj else .error (.schema ("Unexpected value '" ++
          obj.toStr ++ "' for enum '" ++ cls.toStr ++ "'") path)
      | _ => .error (.schema ("Unexpected value '" ++ obj.toStr ++ "' for enum '" ++
          cls.toStr ++ "'") path)
  | .list t => validateList c t obj path
  | .tuple ts => validateTuple c ts obj path
  | .leaf n =>
      if isObjType obj n then .ok obj
      else (fun r => PyVal.custom n r.1 r.2) <$> (reg.leaf n).create obj path
  | .schema n =>
      if isObjType obj n then .ok obj
      else match reg.schema? n with
        | some s =>
            match obj with
            | .dict _ => c.init s obj path
            | .node .. => c.init s obj path
            | _ => .error (.schema ("Expected 'dict' or 'SchemaNode' object, found '" ++
                obj.typeRepr ++ "'") path)
        | none => .error (cannotParse cls path)
  | .other n => if isObjType obj n then .ok obj else .error (cannotParse cls path)
  | .noneType => .error (cannotParse cls path)
  | .union _ => .error (cannotParse cls path)

/-- One step of `_validated_object_type(cls, obj, object_path=path)`. -/
def validateStep (cls : Descriptor) (obj : PyVal) (path : String) : Except PyErr PyVal :=
  match cls with
  | .noneType =>
      match obj with
      | .none => .ok .none
      | _ => .error (.schema ("Expected None, found '" ++ obj.toStr ++ "'.") path)
  | .union vs => unionVariants c cls obj path vs
  | _ =>
      match obj with
      | .none => .error (.schema ("Unexpected value 'None' for type " ++ cls.toStr) path)
      | _ => validateValue reg c cls obj path

end Validator

/-- Where `_assign_fields` takes a field's value from: the first branch of its `if` chain that
holds. `direct` carries `source[name]`. -/
inductive FieldBranch where
  | default
  | conflict
  | transform
  | direct (v : PyVal)
  | missing

section Construction

variable (reg : Registry) (c : Calls)

/-- The branch `_assign_fields` takes for field `name : T`, probing the instance under
construction (class `cls`, fields `attrs` assigned so far, `_source` `selfSource`) and the
effective `source`. -/
def fieldBranch (cls : SchemaClass) (attrs : List (String × PyVal)) (selfSource source : PyVal)
    (name : String) (T : Descriptor) : FieldBranch :=
  match source with
  | .none => .default
  | _ =>
      if cls.hasAttr attrs selfSource ("_" ++ name) && cls.hasAttr attrs selfSource name then
        .conflict
      else if cls.hasAttr attrs selfSource ("_" ++ name) then .transform
      else match sourceGet reg source name with
        | some v => .direct v
        | none =>
            if cls.hasAttr attrs selfSource name || T.isOptional then .default else .missing

/-- `_assign_default`: the class attribute `name`, or `None`, validated at `path/name`. -/
def assignDefault (cls : SchemaClass) (name : String) (T : Descriptor) (path : String) :
    Except PyErr PyVal :=
  c.validate T (((cls.classAttr name).map (Attr.toValue (cls.name ++ "." ++ name))).getD .none)
    (path ++ "/" ++ name)

/-- The message `_get_converted_value` keeps from a `ValueError` or `DataException`. -/
def convertedMessage : List PyVal → String
  | .str s :: _ => s
  | _ => "Failed to validate value type"

/-- `_get_converted_value`: calls `_key`, read off the class, on the source (the untouchable
`self` of a two-parameter function is never passed on); a `ValueError` or `DataException` it
raises becomes a `SchemaException` at the schema's own path. -/
def getConvertedValue (cls : SchemaClass) (key : String) (source : PyVal) (path : String) :
    Except PyErr PyVal :=
  let call : Except PyErr PyVal :=
    match cls.classAttr ("_" ++ key) with
    | none => .error (.attribute ("type object '" ++ cls.name ++ "' has no attribute '_" ++
        key ++ "'"))
    | some (.value v) => .error (.type (v.toStr ++ " is not a callable object"))
    | some (.method params body) =>
        if params = 1 ∨ params = 2 then body source
        else .error (.runtime "Transformation function has wrong number of arguments")
  match call with
  | .error (.value args) => .error (.schema (convertedMessage args) path)
  | .error (.data args) => .error (.schema (convertedMessage args) path)
  | r => r

/-- The `RuntimeError` of a field with both a default and a transformation function. -/
def conflictMessage (cls : SchemaClass) (name : String) : String :=
  "Field '" ++ cls.name ++ "." ++ name ++ "' has default value and transformation function " ++
    "at the same time. That is now allowed. Store the default in the transformation function."

/-- One iteration of `_assign_fields` for a non-internal field: the value assigned, and whether
the name joins `used_keys`. -/
def assignOne (cls : SchemaClass) (attrs : List (String × PyVal)) (selfSource source : PyVal)
    (path name : String) (T : Descriptor) : Except PyErr (PyVal × Bool) :=
  match fieldBranch reg cls attrs selfSource source name T with
  | .default => (·, false) <$> assignDefault c cls name T path
  | .conflict => .error (.runtime (conflictMessage cls name))
  | .transform => do
      let v ← getConvertedValue cls name source path
      let r ← c.validate T v (path ++ "/" ++ name)
      pure (r, true)
  | .direct v => (·, true) <$> c.validate T v (path ++ "/" ++ name)
  | .missing => .error (.schema ("Missing attribute '" ++ name ++ "'.") path)

/-- `_assign_fields`: the loop over the class's own annotations, returning the assigned fields
in order and `used_keys`. -/
def assignFields (cls : SchemaClass) (selfSource source : PyVal) (path : String) :
    List (String × Descriptor) → List (String × PyVal) → List String →
      Except PyErr (List (String × PyVal) × List String)
  | [], attrs, used => .ok (attrs, used)
  | (name, T) :: rest, attrs, used =>
      if isInternalFieldName name then assignFields cls selfSource source path rest attrs used
      else
        match assignOne reg c cls attrs selfSource source path name T with
        | .ok (v, u) =>
            assignFields cls selfSource source path rest (attrs ++ [(name, v)])
              (if u then used ++ [name] else used)
        | .error e => .error e

/-- `source.keys() - used_keys`, in the tree's order. -/
def unusedKeys (es : List (PyVal × PyVal)) (used : List String) : List PyVal :=
  (es.map Prod.fst).filter fun k => !used.any fun u => k.pyEq (.str u)

/-- The message of the unused-keys check. -/
def unusedMessage (unused : List PyVal) : String :=
  "Keys \x7b" ++ PyVal.reprItems unused ++ "\x7d in your configuration object are not part of " ++
    "the configuration schema. Are you using '-' instead of '_'?"

/-- The message `__init__` keeps from a `ValueError` of `_validate`. -/
def validateMessage : List PyVal → String
  | v :: _ => v.toStr
  | [] => "Validation error"

/-- `self._validate()` on the built instance; its `ValueError` becomes a `SchemaException`. -/
def callValidate (cls : SchemaClass) (inst : PyVal) (path : String) : Except PyErr Unit :=
  let r : Except PyErr PyVal :=
    match cls.classAttr "_validate" with
    | some (.method params body) =>
        if params = 1 then body inst
        else .error (.type "_validate() takes a different number of positional arguments")
    | some (.value v) => .error (.type ("'" ++ v.typeName ++ "' object is not callable"))
    | none => .ok .none
  match r with
  | .ok _ => .ok ()
  | .error (.value args) => .error (.schema (validateMessage args) path)
  | .error e => .error e

/-- `__init__`'s normalisation: no source is an empty tree. -/
def normalizeSource : PyVal → PyVal
  | .none => .dict []
  | s => s

/-- The source the fields are assigned from: the source itself, or the instance of the
`_PREVIOUS_SCHEMA` class built from it first. -/
def previousSource (cls : SchemaClass) (source : PyVal) (path : String) : Except PyErr PyVal :=
  match cls.previous with
  | none => .ok source
  | some p =>
      match reg.schema? p with
      | some prev => c.init prev source path
      | none => .error (.name ("name '" ++ p ++ "' is not defined"))

/-- The unused-keys check, made only when the fields were assigned from a parsed tree. -/
def checkUnused (effective : PyVal) (used : List String) (path : String) : Except PyErr Unit :=
  match effective with
  | .dict es =>
      if (unusedKeys es used).isEmpty then .ok ()
      else .error (.schema (unusedMessage (unusedKeys es used)) path)
  | _ => .ok ()

/-- One step of `SchemaNode.__init__(source, object_path=path)` for class `cls`. -/
def initStep (cls : SchemaClass) (source : PyVal) (path : String) : Except PyErr PyVal := do
  let source := normalizeSource source
  let effective ← previousSource reg c cls source path
  let (attrs, used) ← assignFields reg c cls source effective path cls.annotations [] []
  checkUnused effective used path
  callValidate cls (.node cls.name attrs source) path
  pure (.node cls.name attrs source)

end Construction

/-- The calls a run with no fuel left makes. -/
def Calls.exhausted : Calls :=
  ⟨fun _ _ _ => .error .outOfFuel, fun _ _ _ => .error .outOfFuel⟩

/-- One more level of recursion on top of `c`. -/
def Calls.step (reg : Registry) (c : Calls) : Calls :=
  ⟨validateStep reg c, initStep reg c⟩

/-- The validator and the constructor with `fuel` levels of recursion. -/
def calls (reg : Registry) : Nat → Calls
  | 0 => Calls.exhausted
  | n + 1 => (calls reg n).step reg

/-- `_validated_object_type(cls, obj, object_path=path)`. -/
def validatedObjectType (reg : Registry) (fuel : Nat) (cls : Descriptor) (obj : PyVal)
    (path : String) : Except PyErr PyVal :=
  (calls reg fuel).validate cls obj path

/-- `cls(source, object_path=path)` for a `SchemaNode` subclass `cls`. -/
def schemaNode (reg : Registry) (fuel : Nat) (cls : SchemaClass) (source : PyVal)
    (path : String) : Except PyErr PyVal :=
  (calls reg fuel).init cls source path

/-- `get_unparsed_data`: the parsed tree an instance was built from, through every instance
it was built from in turn. -/
def getUnparsedData : PyVal → PyVal
  | .node _ _ src => getUnparsedData src
  | v => v

end KnotSchema
