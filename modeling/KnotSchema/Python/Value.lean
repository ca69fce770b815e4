import Mathlib.Data.List.Basic

/-! Python values as the configuration validator of `utils/modelling.py` meets them: the
parsed document's maps, lists and scalars, and the typed values validation builds from them.
Only the Python operations the validator performs are modelled: `type()`, `str()`, `==` on
dictionary keys, `hash()`, iteration and the exceptions it raises. -/
namespace KnotSchema

/-- The constant a `Literal[...]` descriptor names. -/
inductive Scalar where
  | none
  | bool (b : Bool)
  | int (i : Int)
  | str (s : String)
  deriving Repr, DecidableEq

/-- A Python value. A schema instance (`node`) keeps its class name, its assigned fields in
assignment order and its `_source`; a `CustomValueType` instance (`custom`) is opaque and keeps
only what `str()` and `int()` give for it; `func` is a function object read off a class. -/
inductive PyVal where
  | none
  | bool (b : Bool)
  | int (i : Int)
  | str (s : String)
  | list (items : List PyVal)
  | tuple (items : List PyVal)
  | dict (entries : List (PyVal × PyVal))
  | node (cls : String) (attrs : List (String × PyVal)) (source : PyVal)
  | custom (cls : String) (text : String) (asInt : Option Int)
  | enum (cls : String) (member : String)
  | func (qualname : String)
  deriving Repr

/-- The exceptions the validator raises or lets through. `schema` is `SchemaException(msg,
tree_path)`; `value` and `data` are `ValueError` and `DataException` with their arguments;
`outOfFuel` is not Python's: it marks a run of the model cut off by its fuel. -/
inductive PyErr where
  | schema (msg : String) (path : String)
  | value (args : List PyVal)
  | data (args : List PyVal)
  | runtime (msg : String)
  | type (msg : String)
  | attribute (msg : String)
  | notImplemented (msg : String)
  | name (msg : String)
  | outOfFuel
  deriving Repr

namespace PyVal

/-- `type(obj).__name__`. -/
def typeName : PyVal → String
  | none => "NoneType"
  | bool _ => "bool"
  | int _ => "int"
  | str _ => "str"
  | list _ => "list"
  | tuple _ => "tuple"
  | dict _ => "dict"
  | node cls _ _ => cls
  | custom cls _ _ => cls
  | enum cls _ => cls
  | func _ => "function"

/-- `str(type(obj))`, as the error messages print it. -/
def typeRepr (v : PyVal) : String := "<class '" ++ v.typeName ++ "'>"

mutual
/-- `str(obj)`. Containers print their items with `repr`, which quotes strings. -/
def toStr : PyVal → String
  | none => "None"
  | bool b => if b then "True" else "False"
  | int i => toString i
  | str s => s
  | list xs => "[" ++ reprItems xs ++ "]"
  | tuple xs => "(" ++ reprItems xs ++ (if xs.length = 1 then ",)" else ")")
  | dict es => "\x7b" ++ reprEntries es ++ "\x7d"
  | node cls _ _ => "<" ++ cls ++ " object>"
  | custom _ text _ => text
  | enum cls m => cls ++ "." ++ m
  | func q => "<function " ++ q ++ ">"

/-- The items of a list or tuple, each by `repr`, separated by `", "`. -/
def reprItems : List PyVal → String
  | [] => ""
  | x :: xs =>
      (match x with | str s => "'" ++ s ++ "'" | _ => toStr x) ++
        (if xs.isEmpty then "" else ", " ++ reprItems xs)

/-- The entries of a dict, `repr(key): repr(value)`, separated by `", "`. -/
def reprEntries : List (PyVal × PyVal) → String
  | [] => ""
  | (k, v) :: es =>
      (match k with | str s => "'" ++ s ++ "'" | _ => toStr k) ++ ": " ++
        (match v with | str s => "'" ++ s ++ "'" | _ => toStr v) ++
        (if es.isEmpty then "" else ", " ++ reprEntries es)
end

mutual
/-- Python's `==` between two hashable values, the only ones a dict compares as keys: `True`
equals `1`, tuples compare by items, and two schema instances, never compared by value in
Python, are fresh objects here and so never equal. -/
def pyEq : PyVal → PyVal → Bool
  | none, none => true
  | bool a, bool b => a == b
  | bool a, int i => (if a then 1 else 0) == i
  | int i, bool a => i == (if a then 1 else 0)
  | int i, int j => i == j
  | str s, str t => s == t
  | tuple xs, tuple ys => pyEqItems xs ys
  | custom c t _, custom c' t' _ => c == c' && t == t'
  | enum c m, enum c' m' => c == c' && m == m'
  | func q, func q' => q == q'
  | _, _ => false

/-- `==` on tuples: same length and equal items. -/
def pyEqItems : List PyVal → List PyVal → Bool
  | [], [] => true
  | x :: xs, y :: ys => pyEq x y && pyEqItems xs ys
  | _, _ => false
end

mutual
/-- Whether `hash(obj)` succeeds: lists and dicts are unhashable, and so is a tuple holding one. -/
def hashable : PyVal → Bool
  | list _ => false
  | dict _ => false
  | tuple xs => hashableItems xs
  | _ => true

/-- Every item is hashable. -/
def hashableItems : List PyVal → Bool
  | [] => true
  | x :: xs => hashable x && hashableItems xs
end

mutual
/-- The type `hash(obj)` names when it fails: a tuple's first unhashable item's. -/
def unhashableName : PyVal → String
  | tuple xs => unhashableNameItems xs
  | v => v.typeName

/-- The type the first unhashable item of a tuple names. -/
def unhashableNameItems : List PyVal → String
  | [] => "tuple"
  | x :: xs => if hashable x then unhashableNameItems xs else unhashableName x
end

/-- What `for val in obj` visits: a list's or tuple's items, a string's characters, a dict's
keys. The other values are not iterable; a schema instance is, through `__getitem__`, but its
first item already raises (`iterFailure`). -/
def iterItems : PyVal → Option (List PyVal)
  | list xs => some xs
  | tuple xs => some xs
  | str s => some (s.toList.map fun c => str c.toString)
  | dict es => some (es.map Prod.fst)
  | _ => Option.none

/-- The `TypeError` iterating `obj` raises when `iterItems obj` is `none`. -/
def iterFailure : PyVal → PyErr
  | node .. => .type "attribute name must be string, not 'int'"
  | v => .type ("'" ++ v.typeName ++ "' object is not iterable")

end PyVal

end KnotSchema
