import KnotSchema.Spec.Validation
import KnotSchema.Spec.Termination

/-! Completeness of validation: a parsed node that conforms to a descriptor is accepted, once
every union lists last the variants that could stop it. A descriptor with no `List` and no
`Tuple` in it meets every parsed node with a value or a `SchemaException`, the one exception a
union moves past; `List` and `Tuple` iterate strings and raise `TypeError` on other scalars, so
a union that tries them before the variant a node conforms to can accept the wrong shape or
stop. `Literal[None]` is left out: the `None` check comes before the `Literal` branch. -/
namespace KnotSchema

/-- The descriptors a union may try before its last variant: no `List` and no `Tuple` in
them. -/
inductive Tried : Descriptor → Prop
  | noneType : Tried .noneType
  | int : Tried .int
  | str : Tried .str
  | bool : Tried .bool
  | literal (c : Scalar) : Tried (.literal c)
  | union {vs : List Descriptor} : (∀ v ∈ vs, Tried v) → Tried (.union vs)
  | dict {K V : Descriptor} : Tried K → Tried V → Tried (.dict K V)

/-- The descriptors of a configuration with their unions in a safe order: each variant of a
union but the last is `Tried`, or the union is `Optional[X]`, whose `X` meets `None` with a
`SchemaException` whatever it is. A nested schema is a leaf here; its fields are the class's
business. -/
inductive Ordered : Descriptor → Prop
  | noneType : Ordered .noneType
  | int : Ordered .int
  | str : Ordered .str
  | bool : Ordered .bool
  | literal {c : Scalar} : c ≠ .none → Ordered (.literal c)
  | union {vs : List Descriptor} : (∀ v ∈ vs.dropLast, Tried v) → (∀ v ∈ vs, Ordered v) →
      Ordered (.union vs)
  | optional {X : Descriptor} : Ordered X → Ordered (.union [X, .noneType])
  | list {E : Descriptor} : Ordered E → Ordered (.list E)
  | tuple {ts : List Descriptor} : (∀ t ∈ ts, Ordered t) → Ordered (.tuple ts)
  | dict {K V : Descriptor} : Ordered K → Ordered V → Ordered (.dict K V)
  | schema (n : String) : Ordered (.schema n)

/-- What a `Tried` descriptor gives on a parsed node `n`: a value, scalar when `n` is, or a
`SchemaException`. -/
def TriedOutcome (n : PyVal) : Except PyErr PyVal → Prop
  | .ok r => n.isScalar → r.isScalar
  | .error e => ∃ m q, e = .schema m q

theorem PyVal.hashable_of_isScalar {v : PyVal} (h : v.isScalar) : v.hashable := by
  cases v <;> simp_all [PyVal.isScalar, PyVal.hashable]

theorem Descriptor.size_pos (T : Descriptor) : 0 < T.size := by
  cases T <;> simp only [Descriptor.size] <;> omega

section Loops

variable {c : Calls}

/-- A union of `Tried` variants gives what a `Tried` descriptor gives. -/
theorem unionVariants_tried {cls : Descriptor} {n : PyVal} {p : String} :
    ∀ {vs : List Descriptor}, (∀ v ∈ vs, TriedOutcome n (c.validate v n p)) →
      TriedOutcome n (unionVariants c cls n p vs)
  | [], _ => ⟨_, _, rfl⟩
  | v :: vs, h => by
      have hv := h v (List.mem_cons_self v vs)
      cases hr : c.validate v n p with
      | ok r =>
          rw [hr] at hv
          simpa only [unionVariants, hr] using hv
      | error e =>
          rw [hr] at hv
          obtain ⟨m, q, rfl⟩ := hv
          simp only [unionVariants, hr]
          exact unionVariants_tried fun u hu => h u (List.mem_cons_of_mem v hu)

/-- A union whose variants before `V` are `Tried` returns a value once `V` returns one: `V`'s
or that of an earlier variant. -/
theorem unionVariants_past_tried {cls V : Descriptor} {n r : PyVal} {p : String}
    (hV : c.validate V n p = .ok r) (hScalar : n.isScalar → r.isScalar) :
    ∀ {pre post : List Descriptor}, (∀ u ∈ pre, TriedOutcome n (c.validate u n p)) →
      ∃ r', unionVariants c cls n p (pre ++ V :: post) = .ok r' ∧ (n.isScalar → r'.isScalar)
  | [], _, _ => ⟨r, by simp [unionVariants, hV], hScalar⟩
  | u :: pre, post, h => by
      have hu := h u (List.mem_cons_self u pre)
      cases hr : c.validate u n p with
      | ok r' =>
          rw [hr] at hu
          exact ⟨r', by simp [unionVariants, hr], hu⟩
      | error e =>
          rw [hr] at hu
          obtain ⟨m, q, rfl⟩ := hu
          simp only [List.cons_append, unionVariants, hr]
          exact unionVariants_past_tried hV hScalar fun w hw => h w (List.mem_cons_of_mem u hw)

/-- The dict comprehension over scalar keys raises only what validating its keys and values
raises, when that is a `SchemaException`: a key validated to a scalar is hashable. -/
theorem validateEntries_schema {K V : Descriptor} {path : String} :
    ∀ {es acc : List (PyVal × PyVal)} {e : PyErr},
      (∀ kv ∈ es, kv.1.isScalar ∧
        TriedOutcome kv.1 (c.validate K kv.1 (path ++ " @ key " ++ kv.1.toStr)) ∧
        TriedOutcome kv.2 (c.validate V kv.2 (path ++ " @ value for key " ++ kv.1.toStr))) →
      validateEntries c K V path acc es = .error e → ∃ m q, e = .schema m q
  | [], _, _, _, h => by cases h
  | (k, v) :: es, acc, e, h, hErr => by
      obtain ⟨hk, hK, hV⟩ := h (k, v) (List.mem_cons_self _ _)
      simp only [validateEntries, except_bind_eq_error] at hErr
      rcases hErr with hErr | ⟨k', hk', hErr | ⟨v', -, hErr⟩⟩
      · rw [hErr] at hK
        exact hK
      · rw [hErr] at hV
        exact hV
      · rw [hk'] at hK
        rw [if_pos (PyVal.hashable_of_isScalar (hK hk))] at hErr
        exact validateEntries_schema (fun kv hkv => h kv (List.mem_cons_of_mem _ hkv)) hErr

end Loops

/-- Every variant of an ordered union is ordered. -/
theorem Ordered.variant {vs : List Descriptor} {V : Descriptor} (h : Ordered (.union vs))
    (hV : V ∈ vs) : Ordered V := by
  cases h with
  | union _ hOrd => exact hOrd V hV
  | optional hX =>
      rcases List.mem_cons.mp hV with rfl | hV
      · exact hX
      · obtain rfl : V = .noneType := by simpa using hV
        exact .noneType

section Branches

variable {reg : Registry} {c : Calls}

/-- `List[E]` on a list returns once every item does. -/
theorem validateStep_list_ok {E : Descriptor} {items : List PyVal} {p : String}
    (h : ∀ x ∈ items, ∃ r, c.validate E x (p ++ "[]") = .ok r) :
    ∃ rs, validateStep reg c (.list E) (.list items) p = .ok (.list rs) := by
  obtain ⟨rs, hrs⟩ := exists_forall₂_of_forall h
  refine ⟨rs, ?_⟩
  rw [validateStep_list_of_iter (show PyVal.iterItems (.list items) = some items from rfl),
    validateItems_eq_ok.mpr hrs]
  rfl

/-- `Tuple[...]` on a list returns once every zipped pair does. -/
theorem validateStep_tuple_ok {ts : List Descriptor} {items : List PyVal} {p : String}
    (h : ∀ q ∈ ts.zip items, ∃ r, c.validate q.1 q.2 p = .ok r) :
    ∃ rs, validateStep reg c (.tuple ts) (.list items) p = .ok (.tuple rs) := by
  obtain ⟨rs, hrs⟩ := exists_forall₂_of_forall h
  refine ⟨rs, ?_⟩
  rw [validateStep_tuple_of_iter (show PyVal.iterItems (.list items) = some items from rfl),
    validatePairs_eq_ok.mpr hrs]
  rfl

/-- `Dict[K, V]` on a map returns once every entry validates to a hashable key and a value. -/
theorem validateStep_dict_ok {K V : Descriptor} {es : List (PyVal × PyVal)} {p : String}
    (h : ∀ kv ∈ es, ∃ q, EntryValidated c K V p kv q) :
    ∃ d, validateStep reg c (.dict K V) (.dict es) p = .ok (.dict d) := by
  obtain ⟨ps, hps⟩ := exists_forall₂_of_forall h
  exact ⟨_, validateStep_dict_eq_ok.mpr ⟨_, validateEntries_eq_ok.mpr ⟨ps, hps, rfl⟩, rfl⟩⟩

end Branches

/-- What the calls of a run achieve on descriptors up to size `k`. -/
structure CompleteUpTo (c : Calls) (k : Nat) : Prop where
  none : ∀ T p, T.size ≤ k → TriedOutcome .none (c.validate T .none p)
  tried : ∀ T n p, Tried T → IsTree n → T.size ≤ k → TriedOutcome n (c.validate T n p)
  complete : ∀ T n p, Ordered T → IsTree n → Conforms T n → T.size ≤ k →
    ∃ r, c.validate T n p = .ok r ∧ (n.isScalar → r.isScalar)

section Step

variable {reg : Registry} {c : Calls} {k : Nat} (hc : CompleteUpTo c k)
include hc

/-- An ordered union returns once the variant a node belongs to does: the variants tried
before it give values or `SchemaException`s. -/
theorem unionVariants_of_ordered {vs : List Descriptor} {V : Descriptor} {n r : PyVal}
    {p : String} (hT : Ordered (.union vs)) (hSize : ∀ u ∈ vs, u.size ≤ k) (hV : V ∈ vs)
    (hn : IsTree n) (hNone : V = .noneType → n = .none) (hr : c.validate V n p = .ok r)
    (hScalar : n.isScalar → r.isScalar) :
    ∃ r', validateStep reg c (.union vs) n p = .ok r' ∧ (n.isScalar → r'.isScalar) := by
  cases hT with
  | union hTried _ =>
      obtain ⟨pre, post, rfl⟩ := List.append_of_mem hV
      exact unionVariants_past_tried hr hScalar fun u hu =>
        hc.tried u n p (hTried u (by rw [List.dropLast_append_cons]; exact List.mem_append_left _ hu))
          hn (hSize u (List.mem_append_left _ hu))
  | @optional X _ =>
      rcases List.mem_cons.mp hV with rfl | hV'
      · exact @unionVariants_past_tried c _ V n r p hr hScalar [] [.noneType] nofun
      · obtain rfl : V = .noneType := by simpa using hV'
        obtain rfl := hNone rfl
        exact @unionVariants_past_tried c _ .noneType .none r p hr hScalar [X] [] fun u hu => by
          obtain rfl : u = X := by simpa using hu
          exact hc.none u p (hSize u (List.mem_cons_self _ _))

/-- `None` meets every descriptor with `None` or a `SchemaException`: the `None` check comes
before every branch but `NoneType` and `Union`. -/
theorem validateStep_none {T : Descriptor} {p : String} (hSize : T.size ≤ k + 1) :
    TriedOutcome .none (validateStep reg c T .none p) := by
  cases T with
  | noneType => exact fun _ => rfl
  | union vs =>
      refine unionVariants_tried fun v hv => hc.none v p ?_
      have := Descriptor.size_lt_sizes hv
      simp only [Descriptor.size] at hSize
      omega
  | _ => exact ⟨_, _, rfl⟩

theorem validateStep_tried {T : Descriptor} {n : PyVal} {p : String} (hT : Tried T)
    (hn : IsTree n) (hSize : T.size ≤ k + 1) : TriedOutcome n (validateStep reg c T n p) := by
  cases hT with
  | noneType => cases n <;> simp [validateStep, TriedOutcome, PyVal.isScalar]
  | int => cases hn <;> simp [validateStep, validateValue, validateInt, TriedOutcome, PyVal.isScalar]
  | str => cases hn <;> simp [validateStep, validateValue, validateStr, TriedOutcome, PyVal.isScalar]
  | bool => cases hn <;> simp [validateStep, validateValue, TriedOutcome, PyVal.isScalar]
  | literal c =>
      cases hn <;> simp only [validateStep, validateValue]
      all_goals (try split_ifs) <;> simp [TriedOutcome, PyVal.isScalar]
  | union hvs =>
      refine unionVariants_tried fun v hv => hc.tried v n p (hvs v hv) hn ?_
      have := Descriptor.size_lt_sizes hv
      simp only [Descriptor.size] at hSize
      omega
  | @dict K V hK hV =>
      cases hn with
      | @dict es hKeys hVals _ =>
          have hSchema : ∀ e, validateEntries c K V p [] es = .error e → ∃ m q, e = .schema m q :=
            fun _ => validateEntries_schema fun kv hkv => ⟨hKeys kv hkv,
              hc.tried K _ _ hK (IsTree.of_isScalar (hKeys kv hkv)) (by simp only [Descriptor.size] at hSize; omega),
              hc.tried V _ _ hV (hVals kv hkv) (by simp only [Descriptor.size] at hSize; omega)⟩
          simp only [validateStep, validateValue, validateDict]
          cases hE : validateEntries c K V p [] es with
          | ok d => simp [TriedOutcome, PyVal.isScalar]
          | error e =>
              obtain ⟨m, q, rfl⟩ := hSchema e hE
              simp [TriedOutcome]
      | _ => simp [validateStep, validateValue, validateDict, TriedOutcome]

/-- One validation step accepts a conforming node, and gives a scalar for a scalar. -/
theorem validateStep_complete {T : Descriptor} {n : PyVal} {p : String} (hT : Ordered T)
    (hn : IsTree n) (hConf : Conforms T n) (hSize : T.size ≤ k + 1) :
    ∃ r, validateStep reg c T n p = .ok r ∧ (n.isScalar → r.isScalar) := by
  cases hConf with
  | noneType => exact ⟨.none, rfl, fun _ => rfl⟩
  | int i => exact ⟨.int i, rfl, fun _ => rfl⟩
  | strOfStr s => exact ⟨.str s, rfl, fun _ => rfl⟩
  | strOfInt i => exact ⟨.str (toString i), rfl, fun _ => rfl⟩
  | bool b => exact ⟨.bool b, rfl, fun _ => rfl⟩
  | literal c =>
      cases hT with
      | literal hNone =>
          refine ⟨c.toVal, ?_, id⟩
          cases c <;> simp_all [validateStep, validateValue, Scalar.toVal, PyVal.pyEq]
  | @union vs V _ hV hConfV =>
      have hSub : ∀ u ∈ vs, u.size ≤ k := fun u hu => by
        have := Descriptor.size_lt_sizes hu
        simp only [Descriptor.size] at hSize
        omega
      obtain ⟨r, hr, hScalar⟩ := hc.complete V n p (hT.variant hV) hn hConfV (hSub V hV)
      exact unionVariants_of_ordered hc hT hSub hV hn (by rintro rfl; cases hConfV; rfl) hr hScalar
  | @list E items hItems =>
      cases hT with
      | list hE =>
          cases hn with
          | list hxs =>
              obtain ⟨rs, h⟩ := validateStep_list_ok fun x hx =>
                let ⟨r, hr, _⟩ := hc.complete E x (p ++ "[]") hE (hxs x hx) (hItems x hx)
                  (by simp only [Descriptor.size] at hSize; omega)
                ⟨r, hr⟩
              exact ⟨_, h, nofun⟩
  | @tuple ts items hLength hPairs =>
      cases hT with
      | tuple hts =>
          cases hn with
          | list hxs =>
              obtain ⟨rs, h⟩ := validateStep_tuple_ok fun q hq =>
                let ⟨r, hr, _⟩ := hc.complete q.1 q.2 p (hts _ (List.of_mem_zip hq).1)
                  (hxs _ (List.of_mem_zip hq).2) (hPairs q hq) (by
                    have := Descriptor.size_lt_sizes (List.of_mem_zip hq).1
                    simp only [Descriptor.size] at hSize
                    omega)
                ⟨r, hr⟩
              exact ⟨_, h, nofun⟩
  | @dict K V es hKs hVs =>
      cases hT with
      | dict hK hV =>
          cases hn with
          | dict hKeys hVals _ =>
              obtain ⟨d, h⟩ := validateStep_dict_ok fun kv hkv => by
                obtain ⟨k', hk', hScalar⟩ := hc.complete K kv.1 _ hK
                  (IsTree.of_isScalar (hKeys kv hkv)) (hKs kv hkv)
                  (by simp only [Descriptor.size] at hSize; omega)
                obtain ⟨v', hv', -⟩ := hc.complete V kv.2 _ hV (hVals kv hkv) (hVs kv hkv)
                  (by simp only [Descriptor.size] at hSize; omega)
                exact ⟨(k', v'), hk', hv', PyVal.hashable_of_isScalar (hScalar (hKeys kv hkv))⟩
              exact ⟨_, h, nofun⟩

end Step

/-- The run lemma: calls with fuel `k` settle every descriptor of size at most `k`. -/
theorem completeUpTo_calls (reg : Registry) : ∀ k, CompleteUpTo (calls reg k) k
  | 0 =>
      ⟨fun T _ h => absurd h (Nat.not_le_of_lt (Descriptor.size_pos T)),
        fun T _ _ _ _ h => absurd h (Nat.not_le_of_lt (Descriptor.size_pos T)),
        fun T _ _ _ _ _ h => absurd h (Nat.not_le_of_lt (Descriptor.size_pos T))⟩
  | k + 1 =>
      ⟨fun _ _ hSize => @validateStep_none reg _ _ (completeUpTo_calls reg k) _ _ hSize,
        fun _ _ _ hT hn hSize => validateStep_tried (completeUpTo_calls reg k) hT hn hSize,
        fun _ _ _ hT hn hConf hSize =>
          validateStep_complete (completeUpTo_calls reg k) hT hn hConf hSize⟩

/-- Completeness of validation: with every union listing last the variants that iterate, a
parsed node that conforms to a descriptor is accepted, within as much recursion depth as the
descriptor has constructors. -/
theorem validation_complete {reg : Registry} {fuel : Nat} {T : Descriptor} {n : PyVal}
    (hT : Ordered T) (hn : IsTree n) (hConf : Conforms T n) (hFuel : T.size ≤ fuel)
    (p : String) : ∃ r, validatedObjectType reg fuel T n p = .ok r :=
  let ⟨r, hr, _⟩ := (completeUpTo_calls reg fuel).complete T n p hT hn hConf hFuel
  ⟨r, hr⟩

/-- `Dict[str, Union[int, List[str]]]` accepts a map of an integer and a list of strings. -/
theorem int_or_list_map_accepted :
    ∃ r, validatedObjectType Registry.empty 6 (.dict .str (.union [.int, .list .str]))
      (.dict [(.str "a", .int 1), (.str "b", .list [.str "x"])]) "" = .ok r :=
  validation_complete
    (.dict .str (.union (fun v hv => by simp at hv; subst hv; exact .int)
      (fun v hv => by
        simp only [List.mem_cons, List.not_mem_nil, or_false] at hv
        rcases hv with rfl | rfl
        exacts [.int, .list .str])))
    (.dict (by decide) (fun e he => by
        simp only [List.mem_cons, List.not_mem_nil, or_false] at he
        rcases he with rfl | rfl
        exacts [.int 1, .list fun x hx => by simp at hx; subst hx; exact .str "x"])
      (by unfold KeysDistinct; decide))
    (.dict (fun e he => by
        simp only [List.mem_cons, List.not_mem_nil, or_false] at he
        rcases he with rfl | rfl <;> exact .strOfStr _)
      (fun e he => by
        simp only [List.mem_cons, List.not_mem_nil, or_false] at he
        rcases he with rfl | rfl
        exacts [.union (List.mem_cons_self _ _) (.int 1),
          .union (List.mem_cons_of_mem _ (List.mem_cons_self _ _))
            (.list fun x hx => by simp at hx; subst hx; exact .strOfStr "x")]))
    (by decide) ""

/-- A descriptor with no `List` and no `Tuple` in it meets every parsed node with a value or a
`SchemaException`: never a `TypeError`, so a union can always move past it. -/
theorem tried_raises_only_schema {reg : Registry} {fuel : Nat} {T : Descriptor} {n : PyVal}
    (hT : Tried T) (hn : IsTree n) (hFuel : T.size ≤ fuel) (p : String) :
    (∃ r, validatedObjectType reg fuel T n p = .ok r) ∨
      ∃ m q, validatedObjectType reg fuel T n p = .error (.schema m q) := by
  have h := (completeUpTo_calls reg fuel).tried T n p hT hn hFuel
  unfold validatedObjectType
  cases hr : (calls reg fuel).validate T n p with
  | ok r => exact .inl ⟨r, rfl⟩
  | error e =>
      rw [hr] at h
      obtain ⟨m, q, rfl⟩ := h
      exact .inr ⟨m, q, rfl⟩

/-- `Union[int, Dict[str, bool]]` rejects a list with a `SchemaException`. -/
theorem int_or_dict_rejects_list :
    (∃ r, validatedObjectType Registry.empty 5 (.union [.int, .dict .str .bool])
        (.list [.int 1]) "" = .ok r) ∨
      ∃ m q, validatedObjectType Registry.empty 5 (.union [.int, .dict .str .bool])
        (.list [.int 1]) "" = .error (.schema m q) :=
  tried_raises_only_schema
    (.union fun v hv => by
      simp only [List.mem_cons, List.not_mem_nil, or_false] at hv
      rcases hv with rfl | rfl
      exacts [.int, .dict .str .bool])
    (.list fun x hx => by simp at hx; subst hx; exact .int 1) (by decide) ""

end KnotSchema
