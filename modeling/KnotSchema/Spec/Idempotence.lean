import KnotSchema.Spec.Validation

/-! Validating the output of a validation again. The validator's result, written back as a
parsed tree (tuples and lists as sequences, dicts as maps), is validated a second time against
the same descriptor. The second run gives the first run's result back, unless a union took a
later variant whose result an earlier variant reads differently. Along the way: the object
path only labels `SchemaException`s and never changes which value is returned. -/
namespace KnotSchema

/-! ### The object path only labels errors -/

/-- A `SchemaException` with its path forgotten. -/
def PyErr.unplaced : PyErr → PyErr
  | .schema msg _ => .schema msg ""
  | e => e

/-- Two outcomes that differ at most in the paths of their `SchemaException`s. -/
def SameUpToPath {α : Type} (a b : Except PyErr α) : Prop :=
  a.mapError PyErr.unplaced = b.mapError PyErr.unplaced

section SameUpToPath

variable {α β : Type}

theorem sameUpToPath_refl (a : Except PyErr α) : SameUpToPath a a := rfl

theorem sameUpToPath_schema (msg p p' : String) :
    SameUpToPath (.error (.schema msg p) : Except PyErr α) (.error (.schema msg p')) := rfl

/-- Outcomes equal up to paths are equal, or `SchemaException`s with the same message. -/
theorem SameUpToPath.cases {a b : Except PyErr α} (h : SameUpToPath a b) :
    a = b ∨ ∃ msg p p', a = .error (.schema msg p) ∧ b = .error (.schema msg p') := by
  cases a with
  | ok x => cases b <;> simp_all [SameUpToPath, Except.mapError]
  | error e₁ =>
      cases b with
      | ok y => simp [SameUpToPath, Except.mapError] at h
      | error e₂ =>
          simp only [SameUpToPath, Except.mapError, Except.error.injEq] at h
          cases e₁ <;> cases e₂ <;> simp_all [PyErr.unplaced]

theorem SameUpToPath.eq_ok {a b : Except PyErr α} {x : α} (h : SameUpToPath a b)
    (ha : a = .ok x) : b = .ok x := by
  subst ha
  rcases h.cases with h | ⟨_, _, _, h, _⟩ <;> first | exact h.symm | cases h

theorem SameUpToPath.bind {a b : Except PyErr α} {f g : α → Except PyErr β}
    (h : SameUpToPath a b) (hfg : ∀ x, SameUpToPath (f x) (g x)) :
    SameUpToPath (a >>= f) (b >>= g) := by
  rcases h.cases with rfl | ⟨msg, p, p', rfl, rfl⟩
  · cases a with
    | ok x => exact hfg x
    | error e => rfl
  · rfl

theorem SameUpToPath.map {a b : Except PyErr α} (f : α → β) (h : SameUpToPath a b) :
    SameUpToPath (f <$> a) (f <$> b) := by
  rcases h.cases with rfl | ⟨msg, p, p', rfl, rfl⟩ <;> rfl

end SameUpToPath

/-- The descriptors of a configuration's leaves: `NoneType`, `int`, `str`, `bool`,
`Literal`, and `Union`, `List`, `Dict` and `Tuple` of them. -/
inductive Plain : Descriptor → Prop
  | noneType : Plain .noneType
  | int : Plain .int
  | str : Plain .str
  | bool : Plain .bool
  | literal (c : Scalar) : Plain (.literal c)
  | union {vs : List Descriptor} : (∀ v ∈ vs, Plain v) → Plain (.union vs)
  | list {E : Descriptor} : Plain E → Plain (.list E)
  | dict {K V : Descriptor} : Plain K → Plain V → Plain (.dict K V)
  | tuple {ts : List Descriptor} : (∀ t ∈ ts, Plain t) → Plain (.tuple ts)

/-- The validation call gives the same outcome at every path, up to the errors' paths. -/
def PathFree (c : Calls) : Prop :=
  ∀ T v p p', Plain T → SameUpToPath (c.validate T v p) (c.validate T v p')

section Step

variable {reg : Registry} {c : Calls} (hc : PathFree c)
include hc

theorem unionVariants_pathFree {cls : Descriptor} {obj : PyVal} {p p' : String} :
    ∀ {vs : List Descriptor}, (∀ w ∈ vs, Plain w) →
      SameUpToPath (unionVariants c cls obj p vs) (unionVariants c cls obj p' vs)
  | [], _ => sameUpToPath_schema _ _ _
  | w :: vs, hvs => by
      have ih : SameUpToPath (unionVariants c cls obj p vs) (unionVariants c cls obj p' vs) :=
        unionVariants_pathFree fun x hx => hvs x (List.mem_cons_of_mem _ hx)
      simp only [unionVariants]
      rcases (hc w obj p p' (hvs w (List.mem_cons_self w vs))).cases with
        h | ⟨msg, q, q', h, h'⟩
      · rw [h]
        cases c.validate w obj p' with
        | ok _ => rfl
        | error e => cases e <;> first | exact ih | rfl
      · rw [h, h']
        exact ih

theorem validateItems_pathFree {E : Descriptor} (hE : Plain E) {p p' : String} :
    ∀ items, SameUpToPath (validateItems c E p items) (validateItems c E p' items)
  | [] => rfl
  | x :: xs =>
      (hc E x p p' hE).bind fun _ =>
        (validateItems_pathFree hE xs).bind fun _ => sameUpToPath_refl _

theorem validatePairs_pathFree {p p' : String} :
    ∀ {ps : List (Descriptor × PyVal)}, (∀ q ∈ ps, Plain q.1) →
      SameUpToPath (validatePairs c p ps) (validatePairs c p' ps)
  | [], _ => rfl
  | (t, v) :: _, hps =>
      (hc t v p p' (hps (t, v) (List.mem_cons_self _ _))).bind fun _ =>
        (validatePairs_pathFree fun q hq => hps q (List.mem_cons_of_mem _ hq)).bind fun _ =>
          sameUpToPath_refl _

theorem validateEntries_pathFree {K V : Descriptor} (hK : Plain K) (hV : Plain V)
    {p p' : String} : ∀ (es acc : List (PyVal × PyVal)),
      SameUpToPath (validateEntries c K V p acc es) (validateEntries c K V p' acc es)
  | [], _ => rfl
  | (k, v) :: es, acc =>
      (hc K k _ _ hK).bind fun k' => (hc V v _ _ hV).bind fun v' => by
        split
        · exact validateEntries_pathFree hK hV es _
        · rfl

theorem validateStep_pathFree {T : Descriptor} {v : PyVal} {p p' : String} (hT : Plain T) :
    SameUpToPath (validateStep reg c T v p) (validateStep reg c T v p') := by
  cases hT with
  | noneType => cases v <;> rfl
  | union hvs => exact unionVariants_pathFree hc hvs
  | int => cases v <;> rfl
  | str => cases v <;> rfl
  | bool => cases v <;> rfl
  | literal c =>
      cases v <;> simp only [validateStep, validateValue] <;> first | rfl | (split <;> rfl)
  | list hE =>
      cases hIter : v.iterItems with
      | some items =>
          rw [validateStep_list_of_iter hIter, validateStep_list_of_iter hIter]
          exact (validateItems_pathFree hc hE items).map _
      | none => cases v <;> first | rfl | cases hIter
  | tuple hts =>
      cases hIter : v.iterItems with
      | some items =>
          rw [validateStep_tuple_of_iter hIter, validateStep_tuple_of_iter hIter]
          refine (validatePairs_pathFree hc fun q hq => ?_).map _
          exact hts q.1 (List.of_mem_zip hq).1
      | none => cases v <;> first | rfl | cases hIter
  | dict hK hV =>
      cases v with
      | dict es =>
          simp only [validateStep, validateValue, validateDict]
          rcases (validateEntries_pathFree hc hK hV es []).cases with h | ⟨msg, q, q', h, h'⟩
          · rw [h]
            cases validateEntries c _ _ p' [] es with
            | ok d => rfl
            | error e => cases e <;> rfl
          · rw [h, h']
            rfl
      | _ => rfl

end Step

theorem pathFree_calls (reg : Registry) : ∀ n, PathFree (calls reg n)
  | 0 => fun _ _ _ _ _ => rfl
  | n + 1 => fun _ _ _ _ hT => validateStep_pathFree (pathFree_calls reg n) hT

/-- The object path a validation starts from changes no returned value and no exception but
the paths the `SchemaException`s carry. -/
theorem validation_path_irrelevant (reg : Registry) (n : Nat) {T : Descriptor} (hT : Plain T)
    (v : PyVal) (p p' : String) :
    SameUpToPath (validatedObjectType reg n T v p) (validatedObjectType reg n T v p') :=
  pathFree_calls reg n T v p p' hT

/-- A list of integers given a string item fails the same way at the root and below `/a`. -/
theorem int_list_path_irrelevant :
    Plain (.list .int) ∧
      SameUpToPath (validatedObjectType Registry.empty 2 (.list .int) (.list [.str "x"]) "")
        (validatedObjectType Registry.empty 2 (.list .int) (.list [.str "x"]) "/a") :=
  ⟨.list .int, validation_path_irrelevant Registry.empty 2 (.list .int) _ _ _⟩

/-! ### Re-validating a validated value -/

mutual
/-- A validated value written back as a parsed tree: tuples and lists as sequences, dicts as
maps, scalars as they are. -/
def reserialize : PyVal → PyVal
  | .list xs => .list (reserializeItems xs)
  | .tuple xs => .list (reserializeItems xs)
  | .dict es => .dict (reserializeEntries es)
  | v => v

/-- The items of a sequence, each written back. -/
def reserializeItems : List PyVal → List PyVal
  | [] => []
  | x :: xs => reserialize x :: reserializeItems xs

/-- The entries of a map, key and value written back. -/
def reserializeEntries : List (PyVal × PyVal) → List (PyVal × PyVal)
  | [] => []
  | (k, v) :: es => (reserialize k, reserialize v) :: reserializeEntries es
end

@[simp] theorem reserializeItems_eq_map (xs : List PyVal) :
    reserializeItems xs = xs.map reserialize := by
  induction xs with
  | nil => rfl
  | cons x xs ih => simp [reserializeItems, ih]

@[simp] theorem reserializeEntries_eq_map (es : List (PyVal × PyVal)) :
    reserializeEntries es = es.map fun e => (reserialize e.1, reserialize e.2) := by
  induction es with
  | nil => rfl
  | cons e es ih => simp [reserializeEntries, ih]

/-- A parsed tree is written back as itself. -/
theorem reserialize_tree {v : PyVal} (h : IsTree v) : reserialize v = v := by
  induction h with
  | list _ ih => simp [reserialize, List.map_congr_left ih]
  | @dict es hKeys _ _ ih =>
      have hKey : ∀ e ∈ es, reserialize e.1 = e.1 := fun ⟨k, _⟩ he => by
        have := hKeys _ he
        cases k <;> first | rfl | cases this
      simp only [reserialize, reserializeEntries_eq_map, PyVal.dict.injEq]
      exact (List.map_congr_left fun e he => by rw [hKey e he, ih e he]; rfl).trans (List.map_id _)
  | _ => rfl

/-- The descriptors whose validation returns a parsed node unchanged: `NoneType`, `int`,
`bool`, `Literal`, and `Union` and `Dict` of them. -/
inductive Exact : Descriptor → Prop
  | noneType : Exact .noneType
  | int : Exact .int
  | bool : Exact .bool
  | literal (c : Scalar) : Exact (.literal c)
  | union {vs : List Descriptor} : (∀ v ∈ vs, Exact v) → Exact (.union vs)
  | dict {K V : Descriptor} : Exact K → Exact V → Exact (.dict K V)

/-- The exact descriptors with no `Dict` inside: `NoneType`, `int`, `bool`, `Literal`, and
`Union`s of them. Their validation looks at the value alone, never inside it. -/
inductive Flat : Descriptor → Prop
  | noneType : Flat .noneType
  | int : Flat .int
  | bool : Flat .bool
  | literal (c : Scalar) : Flat (.literal c)
  | union {vs : List Descriptor} : (∀ v ∈ vs, Flat v) → Flat (.union vs)

/-- Plain descriptors whose every union has at most one variant that is not exact, and no
`Dict` in the exact variants before it: `Optional[T]` and `Union[None, T]` for every such `T`,
and `Union[int, str]`, but not `Union[Tuple[...], List[...]]`. -/
inductive Safe : Descriptor → Prop
  | noneType : Safe .noneType
  | int : Safe .int
  | str : Safe .str
  | bool : Safe .bool
  | literal (c : Scalar) : Safe (.literal c)
  | union {pre : List Descriptor} {V : Descriptor} {post : List Descriptor} :
      (∀ w ∈ pre, Flat w) → Safe V → (∀ w ∈ post, Exact w) → Safe (.union (pre ++ V :: post))
  | list {E : Descriptor} : Safe E → Safe (.list E)
  | dict {K V : Descriptor} : Safe K → Safe V → Safe (.dict K V)
  | tuple {ts : List Descriptor} : (∀ t ∈ ts, Safe t) → Safe (.tuple ts)

theorem Flat.exact {T : Descriptor} (h : Flat T) : Exact T := by
  induction h with
  | union _ ih => exact .union ih
  | noneType => exact .noneType
  | int => exact .int
  | bool => exact .bool
  | literal c => exact .literal c

theorem Exact.plain {T : Descriptor} (h : Exact T) : Plain T := by
  induction h with
  | union _ ih => exact .union ih
  | dict _ _ ihK ihV => exact .dict ihK ihV
  | noneType => exact .noneType
  | int => exact .int
  | bool => exact .bool
  | literal c => exact .literal c

theorem Safe.plain {T : Descriptor} (h : Safe T) : Plain T := by
  induction h with
  | @union pre V post hPre _ hPost ih =>
      refine .union fun w hw => ?_
      rcases List.mem_append.mp hw with hw | hw
      · exact (hPre w hw).exact.plain
      · rcases List.mem_cons.mp hw with rfl | hw
        · exact ih
        · exact (hPost w hw).plain
  | list _ ih => exact .list ih
  | dict _ _ ihK ihV => exact .dict ihK ihV
  | tuple _ ih => exact .tuple ih
  | noneType => exact .noneType
  | int => exact .int
  | str => exact .str
  | bool => exact .bool
  | literal c => exact .literal c

/-- Pairs related one by one to themselves are the same list. -/
theorem forall₂_eq_of_self {α β : Type} {R : α → β → Prop} (f : β → α) :
    ∀ {l₁ : List α} {l₂ : List β}, List.Forall₂ R l₁ l₂ → (∀ a b, a ∈ l₁ → R a b → f b = a) →
      l₂.map f = l₁
  | _, _, .nil, _ => rfl
  | _, _, .cons hab hRest, hSelf => by
      rw [List.map_cons, hSelf _ _ (List.mem_cons_self _ _) hab,
        forall₂_eq_of_self f hRest fun a b ha => hSelf a b (List.mem_cons_of_mem _ ha)]

/-- Exact validation of a parsed node returns the node itself. -/
theorem validate_exact {reg : Registry} :
    ∀ {n : Nat} {T : Descriptor} {v : PyVal} {p : String} {r : PyVal}, Exact T → IsTree v →
      (calls reg n).validate T v p = .ok r → r = v
  | 0, _, _, _, _, _, _, h => by simp at h
  | n + 1, T, v, p, r, hT, hv, h => by
      rw [calls_succ_validate] at h
      cases hT with
      | union hvs =>
          obtain ⟨w, hw, hOk⟩ := unionVariants_eq_ok h
          exact validate_exact (hvs w hw) hv hOk
      | dict hK hV =>
          obtain ⟨es, d, rfl, hd, rfl⟩ := validateStep_dict_of_ok h
          obtain ⟨ps, hps, rfl⟩ := validateEntries_eq_ok.mp hd
          cases hv with
          | dict hKeys hValues hDistinct =>
              have hSame : ps = es := (forall₂_eq_of_self id hps fun e q he hq => by
                obtain ⟨hk, hv, -⟩ := hq
                exact Prod.ext (validate_exact hK (.of_isScalar (hKeys e he)) hk)
                  (validate_exact hV (hValues e he) hv)).symm.trans (List.map_id ps) |>.symm
              rw [hSame, dictOfPairs_of_keysDistinct (by simpa using hDistinct), List.nil_append]
      | noneType => cases v <;> simp_all [validateStep]
      | int => cases hv <;> simp_all [validateStep, validateValue, validateInt]
      | bool => cases hv <;> simp_all [validateStep, validateValue]
      | literal c =>
          cases v <;> simp only [validateStep, validateValue] at h <;> (try split at h) <;>
            cases h <;> rfl

/-- An exactly validated node written back and validated again, at any path, gives the same
value: it is the node itself. -/
theorem validate_exact_again {reg : Registry} {n : Nat} {T : Descriptor} {v : PyVal}
    {p : String} {r : PyVal} (hT : Exact T) (hv : IsTree v)
    (h : (calls reg n).validate T v p = .ok r) (p' : String) :
    (calls reg n).validate T (reserialize r) p' = .ok r := by
  obtain rfl := validate_exact hT hv h
  rw [reserialize_tree hv]
  exact (pathFree_calls reg n T r p p' hT.plain).eq_ok h

/-! ### Flat variants meet the output as they met the node -/

theorem isScalar_of_pyEq {x : PyVal} {c : Scalar} (h : x.pyEq c.toVal = true) : x.isScalar := by
  cases x <;> first | rfl | (cases c <;> cases h)

/-- A written-back value that is a scalar was that scalar already. -/
theorem reserialize_eq_of_isScalar {r : PyVal} (h : (reserialize r).isScalar) :
    reserialize r = r := by
  cases r <;> simp_all [reserialize, PyVal.isScalar]

theorem reserialize_ne_custom {r : PyVal} (h : ∀ a b i, r ≠ .custom a b i) :
    ∀ a b i, reserialize r ≠ .custom a b i := by
  cases r <;> simp_all [reserialize]

/-- A union that rejects with a `SchemaException` got one from every variant. -/
theorem unionVariants_eq_schema {c : Calls} {cls : Descriptor} {obj : PyVal} {path m q : String} :
    ∀ {vs : List Descriptor}, unionVariants c cls obj path vs = .error (.schema m q) →
      ∀ w ∈ vs, ∃ m' q', c.validate w obj path = .error (.schema m' q')
  | [], _ => fun _ h => nomatch h
  | v :: vs, h => by
      simp only [unionVariants] at h
      split at h
      · rename_i m' q' hv
        exact List.forall_mem_cons.mpr ⟨⟨m', q', hv⟩, unionVariants_eq_schema h⟩
      · rename_i hNot
        exact absurd h (hNot _ _)

/-- A union whose every variant keeps `x` or rejects it does the same. -/
theorem unionVariants_keeps {c : Calls} {cls : Descriptor} {x : PyVal} {path : String} :
    ∀ {vs : List Descriptor}, (∀ w ∈ vs, c.validate w x path = .ok x ∨
        ∃ m q, c.validate w x path = .error (.schema m q)) →
      unionVariants c cls x path vs = .ok x ∨
        ∃ m q, unionVariants c cls x path vs = .error (.schema m q)
  | [], _ => .inr ⟨_, _, rfl⟩
  | v :: vs, h => by
      simp only [unionVariants]
      rcases h v (List.mem_cons_self v vs) with hv | ⟨m, q, hv⟩ <;> rw [hv]
      · exact .inl rfl
      · exact unionVariants_keeps fun w hw => h w (List.mem_cons_of_mem v hw)

/-- A union over `pre ++ rest` that returns took a variant of `pre`, or got a `SchemaException`
from each of them and returned what `rest` gives. -/
theorem unionVariants_append_eq_ok {c : Calls} {cls : Descriptor} {obj : PyVal} {path : String}
    {r : PyVal} : ∀ {pre rest : List Descriptor},
      unionVariants c cls obj path (pre ++ rest) = .ok r →
      (∃ w ∈ pre, c.validate w obj path = .ok r) ∨
        (∀ w ∈ pre, ∃ m q, c.validate w obj path = .error (.schema m q)) ∧
          unionVariants c cls obj path rest = .ok r
  | [], _, h => .inr ⟨fun _ h => (nomatch h), h⟩
  | w :: pre, rest, h => by
      simp only [List.cons_append, unionVariants] at h
      split at h
      · rename_i m q hw
        rcases unionVariants_append_eq_ok h with ⟨w', hw', hOk⟩ | ⟨hRej, hRest⟩
        · exact .inl ⟨w', List.mem_cons_of_mem _ hw', hOk⟩
        · exact .inr ⟨List.forall_mem_cons.mpr ⟨⟨m, q, hw⟩, hRej⟩, hRest⟩
      · exact .inl ⟨w, List.mem_cons_self _ _, h⟩

/-- Variants of `pre` that each give `r` or reject let `rest`'s `r` through. -/
theorem unionVariants_append_of_ok {c : Calls} {cls : Descriptor} {obj : PyVal} {path : String}
    {r : PyVal} : ∀ {pre rest : List Descriptor}, (∀ w ∈ pre, c.validate w obj path = .ok r ∨
        ∃ m q, c.validate w obj path = .error (.schema m q)) →
      unionVariants c cls obj path rest = .ok r → unionVariants c cls obj path (pre ++ rest) = .ok r
  | [], _, _, h => h
  | w :: pre, rest, hPre, h => by
      simp only [List.cons_append, unionVariants]
      rcases hPre w (List.mem_cons_self _ _) with hw | ⟨m, q, hw⟩ <;> rw [hw]
      exact unionVariants_append_of_ok (fun w' hw' => hPre w' (List.mem_cons_of_mem _ hw')) h

section Flat

variable {reg : Registry} {x : PyVal} (hx : ∀ a b i, x ≠ .custom a b i)
include hx

/-- A flat descriptor keeps what it accepts, and accepts only scalars. -/
theorem validate_flat_eq_ok {w : Descriptor} (hw : Flat w) :
    ∀ {n : Nat} {p : String} {y : PyVal}, (calls reg n).validate w x p = .ok y →
      y = x ∧ x.isScalar := by
  induction hw with
  | union _ ih =>
      intro n p y h
      cases n with
      | zero => cases h
      | succ n =>
          obtain ⟨w, hw, hOk⟩ := unionVariants_eq_ok h
          exact ih w hw hOk
  | _ =>
      intro n p y h
      cases n with
      | zero => cases h
      | succ n =>
          rw [calls_succ_validate] at h
          cases x <;> simp only [validateStep, validateValue, validateInt] at h <;>
            (try split at h) <;> cases h <;>
            first
              | exact ⟨rfl, rfl⟩
              | exact ⟨rfl, isScalar_of_pyEq ‹_›⟩
              | exact absurd rfl (hx _ _ _)

/-- A flat descriptor that rejected some node within a recursion depth meets every other value
within the same depth by keeping it or rejecting it: rejecting explored it to its leaves, and
its leaves look at the value alone. -/
theorem validate_flat_of_schema {w : Descriptor} (hw : Flat w) :
    ∀ {n : Nat} {v : PyVal} {p p' m q : String},
      (calls reg n).validate w v p = .error (.schema m q) →
      (calls reg n).validate w x p' = .ok x ∨
        ∃ m q, (calls reg n).validate w x p' = .error (.schema m q) := by
  induction hw with
  | union _ ih =>
      intro n v p p' m q h
      cases n with
      | zero => cases h
      | succ n =>
          refine unionVariants_keeps fun w hw => ?_
          obtain ⟨m', q', hRej⟩ := unionVariants_eq_schema h w hw
          exact ih w hw hRej
  | _ =>
      intro n v p p' m q h
      cases n with
      | zero => cases h
      | succ n =>
          clear h
          rw [calls_succ_validate]
          cases x <;> simp only [validateStep, validateValue, validateInt] <;> (try split) <;>
            first
              | exact .inl trivial
              | exact .inl rfl
              | exact .inr ⟨_, _, rfl⟩
              | exact absurd rfl (hx _ _ _)

end Flat

/-- Validation against a plain descriptor of a parsed node never returns a custom value. -/
theorem validate_plain_ne_custom {reg : Registry} :
    ∀ {n : Nat} {T : Descriptor} {v : PyVal} {p : String} {r : PyVal}, Plain T → IsTree v →
      (calls reg n).validate T v p = .ok r → ∀ a b i, r ≠ .custom a b i
  | 0, _, _, _, _, _, _, h => by cases h
  | n + 1, T, v, p, r, hT, hv, h => by
      rw [calls_succ_validate] at h
      cases hT with
      | union hvs =>
          obtain ⟨w, hw, hOk⟩ := unionVariants_eq_ok h
          exact validate_plain_ne_custom (hvs w hw) hv hOk
      | list _ =>
          obtain ⟨_, _, _, _, rfl⟩ := validateStep_list_eq_ok h
          simp
      | tuple _ =>
          rcases validateStep_tuple_eq_ok h with ⟨_, _, _, _, rfl⟩ | ⟨⟨_, _, _, rfl⟩, -⟩
          · simp
          · cases hv
      | dict _ _ =>
          obtain ⟨_, _, rfl, _, rfl⟩ := validateStep_dict_of_ok h
          simp
      | _ =>
          cases hv <;> simp only [validateStep, validateValue, validateInt, validateStr] at h <;>
            (try split at h) <;> cases h <;> simp

/-- `zip` pairs the descriptors with the written-back results exactly as it paired them with
the items the results came from. -/
theorem validatePairs_reserialize {c : Calls} {p p' : String} :
    ∀ {ts : List Descriptor} {items rs : List PyVal},
      (∀ t x r, t ∈ ts → x ∈ items → c.validate t x p = .ok r →
        c.validate t (reserialize r) p' = .ok r) →
      validatePairs c p (ts.zip items) = .ok rs →
      validatePairs c p' (ts.zip (rs.map reserialize)) = .ok rs
  | [], _, rs, _, h => by cases rs <;> simp_all [validatePairs]
  | _ :: _, [], rs, _, h => by cases rs <;> simp_all [validatePairs]
  | t :: ts, x :: items, rs, hAgain, h => by
      simp only [List.zip_cons_cons, validatePairs, except_bind_eq_ok, pure, Except.pure,
        Except.ok.injEq] at h
      obtain ⟨r, hr, rs', hrs', rfl⟩ := h
      have hRest := validatePairs_reserialize (fun t' x' r' ht hx =>
        hAgain t' x' r' (List.mem_cons_of_mem _ ht) (List.mem_cons_of_mem _ hx)) hrs'
      show validatePairs c p' ((t, reserialize r) :: ts.zip (rs'.map reserialize)) = .ok (r :: rs')
      rw [validatePairs, hAgain t x r (List.mem_cons_self _ _) (List.mem_cons_self _ _) hr, hRest]
      rfl

/-- Validation against a safe descriptor is idempotent on its own output: the result of a
validation of a parsed node, written back and validated again at any path with the same fuel,
gives the same result. -/
theorem validate_reserialize {reg : Registry} :
    ∀ {n : Nat} {T : Descriptor} {v : PyVal} {p : String} {r : PyVal}, Safe T → IsTree v →
      (calls reg n).validate T v p = .ok r →
      ∀ p', (calls reg n).validate T (reserialize r) p' = .ok r
  | 0, _, _, _, _, _, _, h, _ => by simp at h
  | n + 1, T, v, p, r, hT, hv, h, p' => by
      cases hT with
      | noneType => exact validate_exact_again .noneType hv h p'
      | int => exact validate_exact_again .int hv h p'
      | bool => exact validate_exact_again .bool hv h p'
      | literal c => exact validate_exact_again (.literal c) hv h p'
      | str =>
          rw [calls_succ_validate] at h ⊢
          cases hv <;> simp only [validateStep, validateValue, validateStr] at h <;> cases h <;> rfl
      | @union pre V post hPre hV hPost =>
          have hUnion := h
          -- A variant that accepted the node is exact: the output is the node, met as before.
          have hExact : ∀ w, Exact w → (calls reg n).validate w v p = .ok r →
              (calls reg (n + 1)).validate (.union (pre ++ V :: post)) (reserialize r) p' =
                .ok r := fun w hw hOk => by
            obtain rfl := validate_exact hw hv hOk
            rw [reserialize_tree hv]
            exact (pathFree_calls reg (n + 1) _ r p p'
              (Safe.union hPre hV hPost).plain).eq_ok hUnion
          rw [calls_succ_validate] at h
          rcases unionVariants_append_eq_ok h with ⟨w, hw, hOk⟩ | ⟨hRej, hRest⟩
          · exact hExact w (hPre w hw).exact hOk
          · simp only [unionVariants] at hRest
            cases hFirst : (calls reg n).validate V v p with
            | ok r₁ =>
                rw [hFirst] at hRest
                cases hRest
                -- `V` gave the output: the flat variants before it reject it or keep it, a scalar.
                have hx := reserialize_ne_custom (validate_plain_ne_custom hV.plain hv hFirst)
                rw [calls_succ_validate]
                refine unionVariants_append_of_ok (fun w hw => ?_) ?_
                · obtain ⟨m, q, hw'⟩ := hRej w hw
                  refine (validate_flat_of_schema hx (hPre w hw) hw').imp (fun hOk => ?_) id
                  rw [hOk, reserialize_eq_of_isScalar (validate_flat_eq_ok hx (hPre w hw) hOk).2]
                · simp only [unionVariants, validate_reserialize hV hv hFirst p']
            | error e =>
                rw [hFirst] at hRest
                cases e with
                | schema msg q =>
                    obtain ⟨w, hw, hOk⟩ := unionVariants_eq_ok hRest
                    exact hExact w (hPost w hw) hOk
                | _ => cases hRest
      | @list E hE =>
          rw [calls_succ_validate] at h ⊢
          obtain ⟨items, rs, hIter, hItems, rfl⟩ := validateStep_list_eq_ok h
          have hAgain : ∀ x ∈ rs, (calls reg n).validate E (reserialize x) (p' ++ "[]") = .ok x := by
            intro x hx
            obtain ⟨a, ha, hOk⟩ := forall₂_exists_of_mem_right (validateItems_eq_ok.mp hItems) x hx
            exact validate_reserialize hE (hv.iterItems hIter a ha) hOk _
          have hIterAgain : (reserialize (.list rs)).iterItems = some (rs.map reserialize) := by
            simp [reserialize, PyVal.iterItems]
          rw [validateStep_list_of_iter hIterAgain, validateItems_eq_ok.mpr (List.forall₂_map_left_iff.mpr
              (List.forall₂_same.mpr hAgain))]
          rfl
      | tuple hts =>
          rw [calls_succ_validate] at h ⊢
          rcases validateStep_tuple_eq_ok h with ⟨items, rs, hIter, hPairs, rfl⟩ | ⟨⟨_, _, _, rfl⟩, -⟩
          · have hIterAgain : (reserialize (.tuple rs)).iterItems = some (rs.map reserialize) := by
              simp [reserialize, PyVal.iterItems]
            rw [validateStep_tuple_of_iter hIterAgain]
            rw [validatePairs_reserialize (fun t x r ht hx hOk => validate_reserialize (hts t ht)
              (hv.iterItems hIter x hx) hOk p') hPairs]
            rfl
          · cases hv
      | @dict K V hK hV =>
          rw [calls_succ_validate] at h ⊢
          obtain ⟨es, d, rfl, hd, rfl⟩ := validateStep_dict_of_ok h
          obtain ⟨ps, hps, rfl⟩ := validateEntries_eq_ok.mp hd
          cases hv with
          | dict hKeys hValues _ =>
              have hPairs : ∀ e ∈ ps,
                  ((∀ q, (calls reg n).validate K (reserialize e.1) q = .ok e.1) ∧
                    e.1.hashable) ∧ ∀ q, (calls reg n).validate V (reserialize e.2) q = .ok e.2 := by
                intro e he
                obtain ⟨a, ha, hk, hv, hHash⟩ := forall₂_exists_of_mem_right hps e he
                exact ⟨⟨validate_reserialize hK (.of_isScalar (hKeys a ha)) hk, hHash⟩,
                  validate_reserialize hV (hValues a ha) hv⟩
              have hDict := @forall_dictOfPairs
                (fun k => (∀ q, (calls reg n).validate K (reserialize k) q = .ok k) ∧ k.hashable)
                (fun w => ∀ q, (calls reg n).validate V (reserialize w) q = .ok w) [] ps
                (by simp) hPairs
              have hDistinct : KeysDistinct (dictOfPairs [] ps) :=
                keysDistinct_dictOfPairs ps List.Pairwise.nil
              simp only [reserialize, reserializeEntries_eq_map]
              refine validateStep_dict_eq_ok.mpr ⟨_, validateEntries_eq_ok.mpr ⟨_, ?_,
                (dictOfPairs_of_keysDistinct (by simpa using hDistinct)).symm⟩, rfl⟩
              exact List.forall₂_map_left_iff.mpr (List.forall₂_same.mpr fun e he =>
                ⟨(hDict e he).1.1 _, (hDict e he).2 _, (hDict e he).1.2⟩)

/-- Validation is idempotent on its own output for every descriptor whose unions have at most
one variant that is not exact, with no `Dict` in the exact variants before it: a parsed node
validated to `r`, `r` written back as a parsed tree validates to `r` again, at every path and
within the same recursion depth. -/
theorem validation_idempotent {reg : Registry} {fuel : Nat} {T : Descriptor} {v : PyVal}
    {p : String} {r : PyVal} (hT : Safe T) (hv : IsTree v)
    (h : validatedObjectType reg fuel T v p = .ok r) (p' : String) :
    validatedObjectType reg fuel T (reserialize r) p' = .ok r :=
  validate_reserialize hT hv h p'

/-- `List[Union[bool, str]]` on `[True, 5]`: `bool` takes `True` and rejects `5`, which `str`
turns into `"5"`; on the output `bool` rejects `"5"`, and `str` keeps it. -/
theorem bool_or_str_list_idempotent :
    Safe (.list (.union [.bool, .str])) ∧ IsTree (.list [.bool true, .int 5]) ∧
      validatedObjectType Registry.empty 4 (.list (.union [.bool, .str]))
          (.list [.bool true, .int 5]) "" = .ok (.list [.bool true, .str "5"]) ∧
      validatedObjectType Registry.empty 4 (.list (.union [.bool, .str]))
          (reserialize (.list [.bool true, .str "5"])) "" = .ok (.list [.bool true, .str "5"]) := by
  have hT : Safe (.list (.union [.bool, .str])) :=
    .list (@Safe.union [.bool] .str [] (fun w hw => List.mem_singleton.mp hw ▸ .bool) .str
      fun _ h => (nomatch h))
  have hv : IsTree (.list [.bool true, .int 5]) := .list fun x hx => by
    rcases List.mem_pair.mp hx with rfl | rfl
    · exact .bool true
    · exact .int 5
  have h : validatedObjectType Registry.empty 4 (.list (.union [.bool, .str]))
      (.list [.bool true, .int 5]) "" = .ok (.list [.bool true, .str "5"]) := rfl
  exact ⟨hT, hv, h, validation_idempotent hT hv h ""⟩

/-- `Dict[Union[Literal['a'], Literal['b']], Union[Literal['5'], Dict[Literal['c'],
Dict[Literal['d'], Union[int, Literal['z']]]]]]`: exact, with a `Dict` inside. -/
def deepExact : Descriptor :=
  .dict (.union [.literal (.str "a"), .literal (.str "b")])
    (.union [.literal (.str "5"),
      .dict (.literal (.str "c")) (.dict (.literal (.str "d")) (.union [.int, .literal (.str "z")]))])

/-- `Dict[str, Union[str, Dict[str, Dict[str, int]]]]`, which turns `5` into `"5"`. -/
def coercing : Descriptor := .dict .str (.union [.str, .dict .str (.dict .str .int)])

/-- Two non-exact variants: `Union[Tuple[Literal['5']], List[str]]` on `[5, 6]`. The tuple variant
rejects `5`, the list variant gives `['5', '6']`; on that list the tuple variant now succeeds and
truncates it. And an exact variant with a `Dict` inside, before the non-exact one: on
`{"a": 5, "b": {"c": {"d": 1}}}` it stops at `5`, and `coercing` returns within depth 6; on the
output it takes `"5"` and descends into `"b"` deeper than `coercing` did, past depth 6. -/
theorem union_revalidation_differs :
    (validatedObjectType Registry.empty 3 (.union [.tuple [.literal (.str "5")], .list .str])
        (.list [.int 5, .int 6]) "" = .ok (.list [.str "5", .str "6"]) ∧
      validatedObjectType Registry.empty 3 (.union [.tuple [.literal (.str "5")], .list .str])
        (reserialize (.list [.str "5", .str "6"])) "" = .ok (.tuple [.str "5"])) ∧
    (validatedObjectType Registry.empty 6 (.union [deepExact, coercing])
        (.dict [(.str "a", .int 5), (.str "b", .dict [(.str "c", .dict [(.str "d", .int 1)])])]) "" =
        .ok (.dict [(.str "a", .str "5"), (.str "b", .dict [(.str "c", .dict [(.str "d", .int 1)])])]) ∧
      validatedObjectType Registry.empty 6 (.union [deepExact, coercing])
        (reserialize (.dict [(.str "a", .str "5"),
          (.str "b", .dict [(.str "c", .dict [(.str "d", .int 1)])])])) "" = .error .outOfFuel) :=
  ⟨⟨rfl, rfl⟩, rfl, rfl⟩

end KnotSchema
