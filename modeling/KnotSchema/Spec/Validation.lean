import KnotSchema.Schema.Steps

/-! Validation against the descriptors a configuration's leaves use: `NoneType`, `int`, `str`,
`bool`, `Literal`, `Union`, `List`, `Dict` and `Tuple`, on the trees the parser produces. The
conformance relation below is the one a reader of the schema expects; the validator accepts
more, and a union can stop before the variant that conforms. -/
namespace KnotSchema

/-- A parsed node conforms to a descriptor: `NoneType` takes the absent node, `int` a
non-boolean integer, `str` a string or an integer, `bool` a boolean, `Literal[c]` the scalar `c`
itself, a list every item of which conforms, a tuple a sequence of exactly its length, a dict a
map whose keys and values conform, a union a node that one of its variants takes. -/
inductive Conforms : Descriptor → PyVal → Prop
  | noneType : Conforms .noneType .none
  | int (i : Int) : Conforms .int (.int i)
  | strOfStr (s : String) : Conforms .str (.str s)
  | strOfInt (i : Int) : Conforms .str (.int i)
  | bool (b : Bool) : Conforms .bool (.bool b)
  | literal (c : Scalar) : Conforms (.literal c) c.toVal
  | union {vs : List Descriptor} {T : Descriptor} {n : PyVal} :
      T ∈ vs → Conforms T n → Conforms (.union vs) n
  | list {E : Descriptor} {items : List PyVal} :
      (∀ x ∈ items, Conforms E x) → Conforms (.list E) (.list items)
  | tuple {ts : List Descriptor} {items : List PyVal} : ts.length = items.length →
      (∀ p ∈ ts.zip items, Conforms p.1 p.2) → Conforms (.tuple ts) (.list items)
  | dict {K V : Descriptor} {es : List (PyVal × PyVal)} : (∀ e ∈ es, Conforms K e.1) →
      (∀ e ∈ es, Conforms V e.2) → Conforms (.dict K V) (.dict es)

/-- The scalars the parser produces: map keys and leaves. -/
def PyVal.isScalar : PyVal → Bool
  | .none | .bool _ | .int _ | .str _ => true
  | _ => false

/-- A node of a parsed document: a scalar, a sequence of nodes, or a map from pairwise
distinct scalar keys to nodes. -/
inductive IsTree : PyVal → Prop
  | none : IsTree .none
  | bool (b : Bool) : IsTree (.bool b)
  | int (i : Int) : IsTree (.int i)
  | str (s : String) : IsTree (.str s)
  | list {xs : List PyVal} : (∀ x ∈ xs, IsTree x) → IsTree (.list xs)
  | dict {es : List (PyVal × PyVal)} : (∀ e ∈ es, e.1.isScalar) → (∀ e ∈ es, IsTree e.2) →
      KeysDistinct es → IsTree (.dict es)

theorem IsTree.of_isScalar {v : PyVal} (h : v.isScalar) : IsTree v := by
  cases v <;> cases h <;> constructor

/-- What iterating a node visits is again a node: items, characters or keys. -/
theorem IsTree.iterItems {v : PyVal} {items : List PyVal} (hv : IsTree v)
    (h : v.iterItems = some items) : ∀ x ∈ items, IsTree x := by
  cases hv with
  | list hxs => cases h; exact hxs
  | str s =>
      cases h
      simp only [List.mem_map]
      rintro _ ⟨ch, -, rfl⟩
      exact .str _
  | dict hKeys _ _ =>
      cases h
      simp only [List.mem_map]
      rintro _ ⟨e, he, rfl⟩
      exact .of_isScalar (hKeys e he)
  | _ => cases h

/-- `List[str]` iterates a string into its characters, `Tuple[int]` drops what `zip` does not
pair, and `Literal[1]` takes `True`, which equals `1` in Python: none of the three nodes
conforms. -/
theorem validator_accepts_nonconforming :
    (¬Conforms (.list .str) (.str "ab") ∧
      validatedObjectType Registry.empty 2 (.list .str) (.str "ab") "" =
        .ok (.list [.str "a", .str "b"])) ∧
    (¬Conforms (.tuple [.int]) (.list [.int 1, .int 2]) ∧
      validatedObjectType Registry.empty 2 (.tuple [.int]) (.list [.int 1, .int 2]) "" =
        .ok (.tuple [.int 1])) ∧
    (¬Conforms (.literal (.int 1)) (.bool true) ∧
      validatedObjectType Registry.empty 1 (.literal (.int 1)) (.bool true) "" =
        .ok (.bool true)) :=
  ⟨⟨(by nofun), rfl⟩, ⟨(fun h => by cases h with | tuple hLength _ => cases hLength), rfl⟩,
    ⟨(by nofun), rfl⟩⟩

/-- `Union[List[str], str]` on `5`: iterating the integer raises a `TypeError`, which the
union's `except SchemaException` does not catch, so the `str` variant that takes `5` is never
tried. -/
theorem union_stops_at_type_error :
    validatedObjectType Registry.empty 3 (.union [.list .str, .str]) (.int 5) "" =
      .error (.type "'int' object is not iterable") ∧
    validatedObjectType Registry.empty 2 .str (.int 5) "" = .ok (.str "5") :=
  ⟨rfl, rfl⟩

/-- A map validated against `Dict[K, V]` gives the dict of its entries' validated pairs,
inserted in order: never more entries than the map, and exactly the pairs, in order, when no
two validated keys are equal. Equal validated keys merge, the later value winning. -/
theorem dict_entries_validated {reg : Registry} {n : Nat} {K V : Descriptor}
    {es : List (PyVal × PyVal)} {path : String} {d : PyVal}
    (h : validatedObjectType reg (n + 1) (.dict K V) (.dict es) path = .ok d) :
    ∃ ps, List.Forall₂ (EntryValidated (calls reg n) K V path) es ps ∧
      d = .dict (dictOfPairs [] ps) ∧ (dictOfPairs [] ps).length ≤ es.length ∧
      (KeysDistinct ps → dictOfPairs [] ps = ps) := by
  have hStep : validateStep reg (calls reg n) (.dict K V) (.dict es) path = .ok d := h
  obtain ⟨entries, hEntries, rfl⟩ := validateStep_dict_eq_ok.mp hStep
  obtain ⟨ps, hps, rfl⟩ := validateEntries_eq_ok.mp hEntries
  refine ⟨ps, hps, rfl, ?_, fun hDistinct => dictOfPairs_of_keysDistinct (by simpa using hDistinct)⟩
  simpa [hps.length_eq] using length_dictOfPairs_le [] ps

/-- Two string keys under `Dict[str, int]` stay two entries, each validated. -/
theorem dict_entries_validated_two_keys :
    validatedObjectType Registry.empty 2 (.dict .str .int)
        (.dict [(.str "a", .int 1), (.str "b", .int 2)]) "" =
      .ok (.dict [(.str "a", .int 1), (.str "b", .int 2)]) ∧
    ∃ ps, List.Forall₂ (EntryValidated (calls Registry.empty 1) .str .int "")
        [(.str "a", .int 1), (.str "b", .int 2)] ps ∧
      PyVal.dict [(.str "a", .int 1), (.str "b", .int 2)] = .dict (dictOfPairs [] ps) ∧
      (dictOfPairs [] ps).length ≤ 2 ∧ (KeysDistinct ps → dictOfPairs [] ps = ps) := by
  have h : validatedObjectType Registry.empty 2 (.dict .str .int)
      (.dict [(.str "a", .int 1), (.str "b", .int 2)]) "" =
        .ok (.dict [(.str "a", .int 1), (.str "b", .int 2)]) := rfl
  exact ⟨h, dict_entries_validated h⟩

/-- The keys `1` and `"1"` are distinct in the map, and both validate to `"1"` under `str`:
the dict keeps one entry, with the later value. -/
theorem dict_merges_coerced_keys :
    validatedObjectType Registry.empty 2 (.dict .str .int)
        (.dict [(.int 1, .int 5), (.str "1", .int 6)]) "" =
      .ok (.dict [(.str "1", .int 6)]) :=
  rfl

end KnotSchema
