import KnotSchema.Spec.Validation

/-! What validation guarantees of the values it returns, the class docstring's "you are free to
use an untrusted source object and turn it into a data structure, where you are sure what is
what": whatever `_validated_object_type` returns has the type its descriptor names, and every
construction returns an instance of its class whose fields have their declared types, nested
instances included. Two things bound the guarantee. A `Tuple[...]` result may be shorter than
its descriptor, since `zip` stops at the shorter side. And a value that already has the class
`type(obj) == cls` asks for is passed on unchecked, so the values that come from outside (the
document, the class namespaces, the transformation functions) must hold no value that passes
itself off as an instance. -/
namespace KnotSchema

/-- A validated value has the type a descriptor names. Custom leaf types, enums and other
classes are checked by class only, as `type(obj) == cls` does. A nested schema's value is an
instance of its class whose fields, in declaration order, have their declared types; for a name
no class is registered under, it is any value of that class. A tuple holds at most as many items
as its descriptor lists, each of its type. -/
inductive HasType (reg : Registry) : Descriptor → PyVal → Prop
  | noneType : HasType reg .noneType .none
  | int (i : Int) : HasType reg .int (.int i)
  | str (s : String) : HasType reg .str (.str s)
  | bool (b : Bool) : HasType reg .bool (.bool b)
  | literal {c : Scalar} {v : PyVal} : v.pyEq c.toVal = true → HasType reg (.literal c) v
  | union {vs : List Descriptor} {T : Descriptor} {v : PyVal} :
      T ∈ vs → HasType reg T v → HasType reg (.union vs) v
  | list {E : Descriptor} {items : List PyVal} :
      (∀ x ∈ items, HasType reg E x) → HasType reg (.list E) (.list items)
  | tuple {ts : List Descriptor} {items : List PyVal} : items.length ≤ ts.length →
      (∀ p ∈ ts.zip items, HasType reg p.1 p.2) → HasType reg (.tuple ts) (.tuple items)
  | dict {K V : Descriptor} {es : List (PyVal × PyVal)} : KeysDistinct es →
      (∀ e ∈ es, HasType reg K e.1) → (∀ e ∈ es, HasType reg V e.2) →
      HasType reg (.dict K V) (.dict es)
  | enum (e m : String) : HasType reg (.enum e) (.enum e m)
  | leaf {n : String} {v : PyVal} : v.typeName = n → HasType reg (.leaf n) v
  | other {n : String} {v : PyVal} : v.typeName = n → HasType reg (.other n) v
  | node {n : String} {S : SchemaClass} {attrs : List (String × PyVal)} {src : PyVal} :
      reg.schema? n = some S → attrs.map Prod.fst = S.fields.map Prod.fst →
      (∀ p ∈ S.fields.zip attrs, HasType reg p.1.2 p.2.2) →
      HasType reg (.schema n) (.node n attrs src)
  | unregistered {n : String} {v : PyVal} : reg.schema? n = none → v.typeName = n →
      HasType reg (.schema n) v

/-- The values a value holds directly: a sequence's items, a map's keys and values, an
instance's source and fields. -/
def PyVal.children : PyVal → List PyVal
  | .list xs => xs
  | .tuple xs => xs
  | .dict es => es.map Prod.fst ++ es.map Prod.snd
  | .node _ attrs src => src :: attrs.map Prod.snd
  | _ => []

/-- No value inside `v`, `v` included, passes itself off as an instance: whatever has the class
of a registered schema is an instance of it with typed fields. -/
inductive Genuine (reg : Registry) : PyVal → Prop
  | intro {v : PyVal} :
      (∀ S, reg.schema? v.typeName = some S → HasType reg (.schema v.typeName) v) →
      (∀ w ∈ v.children, Genuine reg w) → Genuine reg v

/-- The classes of the values validation builds itself. -/
def builtinTypeNames : List String :=
  ["NoneType", "bool", "int", "str", "list", "tuple", "dict", "function"]

/-- A class attribute hands out only genuine values: its value, or what its function returns
on a genuine argument. -/
def AttrGenuine (reg : Registry) : Attr → Prop
  | .value v => Genuine reg v
  | .method _ body => ∀ x r, Genuine reg x → body x = .ok r → Genuine reg r

/-- What the guarantee asks of the classes: each is registered under its own name, none under
the name of a built-in class or of a custom leaf type that builds values, and their namespaces
hand out only genuine values. -/
structure TypedRegistry (reg : Registry) : Prop where
  name : ∀ n S, reg.schema? n = some S → S.name = n
  builtin : ∀ n ∈ builtinTypeNames, reg.schema? n = none
  leaf : ∀ n S x p r, reg.schema? n = some S → (reg.leaf n).create x p ≠ .ok r
  attrs : ∀ n S k a, reg.schema? n = some S → S.attrs.lookup k = some a → AttrGenuine reg a

/-- The two recursive calls return only typed, genuine values when given genuine ones. -/
structure TypedCalls (reg : Registry) (c : Calls) : Prop where
  validate : ∀ T v p r, Genuine reg v → c.validate T v p = .ok r →
    HasType reg T r ∧ Genuine reg r
  init : ∀ n S x p r, reg.schema? n = some S → Genuine reg x → c.init S x p = .ok r →
    HasType reg (.schema n) r ∧ Genuine reg r

section Genuine

variable {reg : Registry}

theorem Genuine.child {v w : PyVal} (h : Genuine reg v) (hw : w ∈ v.children) :
    Genuine reg w := by
  cases h with
  | intro _ hc => exact hc w hw

theorem Genuine.typed {v : PyVal} {S : SchemaClass} (h : Genuine reg v)
    (hS : reg.schema? v.typeName = some S) : HasType reg (.schema v.typeName) v := by
  cases h with
  | intro hRoot _ => exact hRoot S hS

theorem Genuine.of_unregistered {v : PyVal} (hN : reg.schema? v.typeName = none)
    (hc : ∀ w ∈ v.children, Genuine reg w) : Genuine reg v :=
  .intro (fun _ hS => nomatch hN.symm.trans hS) hc

theorem TypedRegistry.genuine {v : PyVal} (hReg : TypedRegistry reg)
    (hName : v.typeName ∈ builtinTypeNames) (hc : ∀ w ∈ v.children, Genuine reg w) :
    Genuine reg v :=
  .of_unregistered (hReg.builtin _ hName) hc

/-- A scalar validation builds, or the `None` a missing default reads as, is genuine. -/
theorem TypedRegistry.genuine_scalar {v : PyVal} (hReg : TypedRegistry reg)
    (hv : v.isScalar) : Genuine reg v := by
  cases v <;> cases hv <;>
    exact hReg.genuine (by simp [PyVal.typeName, builtinTypeNames]) (by simp [PyVal.children])

/-- A parsed document holds no instance. -/
theorem TypedRegistry.genuine_of_isTree {v : PyVal} (hReg : TypedRegistry reg) (hv : IsTree v) :
    Genuine reg v := by
  induction hv with
  | list _ ih => exact hReg.genuine (by simp [PyVal.typeName, builtinTypeNames]) ih
  | dict hKeys _ _ ih =>
      refine hReg.genuine (by simp [PyVal.typeName, builtinTypeNames]) fun w hw => ?_
      rcases List.mem_append.mp hw with hw | hw <;> obtain ⟨e, he, rfl⟩ := List.mem_map.mp hw
      · exact hReg.genuine_scalar (hKeys e he)
      · exact ih e he
  | _ => exact hReg.genuine_scalar rfl

/-- What iterating a genuine value visits is genuine: items, characters or keys. -/
theorem Genuine.iterItems {v : PyVal} {items : List PyVal} (hReg : TypedRegistry reg)
    (hv : Genuine reg v) (h : v.iterItems = some items) : ∀ x ∈ items, Genuine reg x := by
  cases v with
  | list xs => cases h; exact fun x hx => hv.child hx
  | tuple xs => cases h; exact fun x hx => hv.child hx
  | str s =>
      cases h
      simp only [List.mem_map]
      rintro _ ⟨ch, -, rfl⟩
      exact hReg.genuine_scalar rfl
  | dict es =>
      cases h
      exact fun x hx => hv.child (List.mem_append_left _ hx)
  | _ => cases h

/-- `getattr(cls, name)` on a registered class finds only attributes that hand out genuine
values: `SchemaNode`'s own members return `None`. -/
theorem classAttr_genuine {n : String} {S : SchemaClass} {k : String} {a : Attr}
    (hReg : TypedRegistry reg) (hS : reg.schema? n = some S) (h : S.classAttr k = some a) :
    AttrGenuine reg a := by
  unfold SchemaClass.classAttr at h
  split at h
  · cases hPrev : S.previous <;> simp only [hPrev, previousAttr, Option.some.injEq] at h <;>
      subst h
    · exact hReg.genuine_scalar rfl
    · exact fun _ _ _ h => nomatch h
  · split at h
    · cases h
      exact hReg.attrs n S k _ hS ‹_›
    · unfold schemaNodeMethod at h
      split at h <;> cases h <;> exact fun _ _ _ h => by cases h; exact hReg.genuine_scalar rfl

theorem AttrGenuine.toValue {a : Attr} (hReg : TypedRegistry reg) (h : AttrGenuine reg a)
    (q : String) : Genuine reg (a.toValue q) := by
  cases a with
  | value v => exact h
  | method _ _ =>
      exact hReg.genuine (by simp [Attr.toValue, PyVal.typeName, builtinTypeNames]) nofun

/-- `source[name]` on a genuine source is genuine: a map's value, or an instance's field or
class attribute. -/
theorem sourceGet_genuine {source v : PyVal} {name : String} (hReg : TypedRegistry reg)
    (hSrc : Genuine reg source) (h : sourceGet reg source name = some v) : Genuine reg v := by
  cases source with
  | dict es =>
      obtain ⟨e, he, rfl⟩ := Option.map_eq_some'.mp h
      exact hSrc.child (List.mem_append_right _
        (List.mem_map_of_mem _ (List.mem_of_find?_eq_some he)))
  | node cls attrs src =>
      have hAttr : ∀ b, attrs.lookup name = some b → Genuine reg b := fun b hb =>
        hSrc.child (List.mem_cons_of_mem _ (List.mem_map_of_mem Prod.snd
          (mem_of_lookup_eq_some hb)))
      simp only [sourceGet, nodeAttr] at h
      split at h
      · rename_i S hS
        simp only [SchemaClass.instanceAttr] at h
        split_ifs at h
        · cases h
          exact hSrc.child (List.mem_cons_self _ _)
        · split at h
          · cases h
            exact hAttr _ ‹_›
          · obtain ⟨a, ha, rfl⟩ := Option.map_eq_some'.mp h
            exact (classAttr_genuine hReg hS ha).toValue hReg _
      · split_ifs at h
        · cases h
          exact hSrc.child (List.mem_cons_self _ _)
        · exact hAttr _ h
  | _ => cases h

/-- What a transformation function of a registered class returns on a genuine source is
genuine. -/
theorem getConvertedValue_genuine {n : String} {S : SchemaClass} {key : String}
    {source v : PyVal} {p : String} (hReg : TypedRegistry reg) (hS : reg.schema? n = some S)
    (hSrc : Genuine reg source) (h : getConvertedValue S key source p = .ok v) :
    Genuine reg v := by
  unfold getConvertedValue at h
  cases hA : S.classAttr ("_" ++ key) with
  | none => simp only [hA] at h; cases h
  | some a =>
      cases a with
      | value w => simp only [hA] at h; cases h
      | method params body =>
          simp only [hA] at h
          split_ifs at h
          split at h <;> first | cases h | exact classAttr_genuine hReg hS hA _ _ hSrc ‹_›

end Genuine

/-- A run over `zip ts items` leaves at most as many results as descriptors, the `k`-th result
coming from the `k`-th descriptor and some item. -/
theorem forall₂_zip_results {α β γ : Type} {R : α × β → γ → Prop} :
    ∀ {ts : List α} {items : List β} {rs : List γ}, List.Forall₂ R (ts.zip items) rs →
      rs.length ≤ ts.length ∧ ∀ q ∈ ts.zip rs, ∃ x ∈ items, R (q.1, x) q.2
  | [], _, _, h => by cases h; simp
  | _ :: _, [], _, h => by cases h; simp
  | t :: ts, x :: items, rs, h => by
      rw [List.zip_cons_cons] at h
      cases h with
      | cons hr hrs =>
          obtain ⟨hLen, hAll⟩ := forall₂_zip_results hrs
          refine ⟨by simpa using hLen, ?_⟩
          simp only [List.zip_cons_cons, List.forall_mem_cons]
          exact ⟨⟨x, List.mem_cons_self _ _, hr⟩,
            fun q hq => (hAll q hq).imp fun y hy => ⟨List.mem_cons_of_mem _ hy.1, hy.2⟩⟩

section Step

variable {reg : Registry} {c : Calls} (hReg : TypedRegistry reg) (hc : TypedCalls reg c)
include hReg hc

omit hReg in
theorem validateItems_typed {E : Descriptor} {path : String} {items rs : List PyVal}
    (hItems : ∀ x ∈ items, Genuine reg x) (h : validateItems c E path items = .ok rs) :
    ∀ r ∈ rs, HasType reg E r ∧ Genuine reg r := fun r hr => by
  obtain ⟨x, hx, hxr⟩ := forall₂_exists_of_mem_right (validateItems_eq_ok.mp h) r hr
  exact hc.validate _ _ _ _ (hItems x hx) hxr

omit hReg in
/-- A tuple holds one validated item per descriptor `zip` reached. -/
theorem validatePairs_typed {ts : List Descriptor} {items rs : List PyVal} {path : String}
    (hItems : ∀ x ∈ items, Genuine reg x) (h : validatePairs c path (ts.zip items) = .ok rs) :
    HasType reg (.tuple ts) (.tuple rs) ∧ ∀ r ∈ rs, Genuine reg r := by
  have hRun := validatePairs_eq_ok.mp h
  obtain ⟨hLen, hAll⟩ := forall₂_zip_results hRun
  refine ⟨.tuple hLen fun q hq => ?_, fun r hr => ?_⟩
  · obtain ⟨x, hx, hxr⟩ := hAll q hq
    exact (hc.validate _ _ _ _ (hItems x hx) hxr).1
  · obtain ⟨q, hq, hqr⟩ := forall₂_exists_of_mem_right hRun r hr
    exact (hc.validate _ _ _ _ (hItems q.2 (List.of_mem_zip hq).2) hqr).2

/-- The dict comprehension builds a dict of typed keys and values, no two keys equal. -/
theorem validateEntries_typed {K V : Descriptor} {path : String} {es d : List (PyVal × PyVal)}
    (hes : ∀ w ∈ (PyVal.dict es).children, Genuine reg w)
    (h : validateEntries c K V path [] es = .ok d) :
    HasType reg (.dict K V) (.dict d) ∧ Genuine reg (.dict d) := by
  obtain ⟨ps, hps, rfl⟩ := validateEntries_eq_ok.mp h
  have hPairs : ∀ q ∈ ps, (HasType reg K q.1 ∧ Genuine reg q.1) ∧
      (HasType reg V q.2 ∧ Genuine reg q.2) := fun q hq => by
    obtain ⟨e, he, hk, hv, -⟩ := forall₂_exists_of_mem_right hps q hq
    exact ⟨hc.validate _ _ _ _ (hes _ (List.mem_append_left _ (List.mem_map_of_mem _ he))) hk,
      hc.validate _ _ _ _ (hes _ (List.mem_append_right _ (List.mem_map_of_mem _ he))) hv⟩
  have hAll := @forall_dictOfPairs (fun k => HasType reg K k ∧ Genuine reg k)
    (fun v => HasType reg V v ∧ Genuine reg v) [] ps nofun hPairs
  refine ⟨.dict (keysDistinct_dictOfPairs ps List.Pairwise.nil) (fun e he => (hAll e he).1.1)
    (fun e he => (hAll e he).2.1), hReg.genuine (by simp [PyVal.typeName, builtinTypeNames])
    fun w hw => ?_⟩
  rcases List.mem_append.mp hw with hw | hw <;> obtain ⟨e, he, rfl⟩ := List.mem_map.mp hw
  · exact (hAll e he).1.2
  · exact (hAll e he).2.2

/-- The branches after the `None` check return typed, genuine values: built scalars and
containers, a value that already has the class asked for, or a constructed instance. -/
theorem validateValue_typed {T : Descriptor} {v : PyVal} {p : String} {r : PyVal}
    (hv : Genuine reg v) (h : validateValue reg c T v p = .ok r) :
    HasType reg T r ∧ Genuine reg r := by
  cases T with
  | int =>
      simp only [validateValue, validateInt] at h
      split at h <;> (try split at h) <;> cases h <;> exact ⟨.int _, hReg.genuine_scalar rfl⟩
  | str =>
      simp only [validateValue, validateStr] at h
      split at h <;> cases h <;> exact ⟨.str _, hReg.genuine_scalar rfl⟩
  | bool =>
      simp only [validateValue] at h
      split at h <;> cases h
      exact ⟨.bool _, hv⟩
  | literal e =>
      simp only [validateValue] at h
      split_ifs at h with hEq
      cases h
      exact ⟨.literal hEq, hv⟩
  | enum e =>
      simp only [validateValue] at h
      split at h
      · split_ifs at h with hEq
        cases h
        subst hEq
        exact ⟨.enum _ _, hv⟩
      · cases h
  | leaf n =>
      simp only [validateValue] at h
      split at h
      · rename_i hType
        cases h
        exact ⟨.leaf (by simpa [isObjType] using hType), hv⟩
      · obtain ⟨q, hq, rfl⟩ := except_map_eq_ok.mp h
        refine ⟨.leaf rfl, .of_unregistered ?_ nofun⟩
        cases hS : reg.schema? n with
        | none => exact hS
        | some S => exact absurd hq (hReg.leaf n S _ _ _ hS)
  | schema n =>
      simp only [validateValue] at h
      split at h
      · rename_i hType
        cases h
        have hName : v.typeName = n := by simpa [isObjType] using hType
        subst hName
        refine ⟨?_, hv⟩
        cases hS : reg.schema? v.typeName with
        | none => exact .unregistered hS rfl
        | some S => exact hv.typed hS
      · split at h
        · rename_i S hS
          split at h <;> first | exact hc.init n S _ p r hS hv h | cases h
        · cases h
  | other n =>
      simp only [validateValue] at h
      split at h
      · rename_i hType
        cases h
        exact ⟨.other (by simpa [isObjType] using hType), hv⟩
      · cases h
  | dict K V =>
      simp only [validateValue, validateDict] at h
      split at h
      · rename_i d hBuilt
        cases h
        split at hBuilt
        · exact validateEntries_typed hReg hc (fun w hw => hv.child hw) hBuilt
        · cases hBuilt
      · cases h
      · cases h
  | list E =>
      simp only [validateValue, validateList] at h
      split at h
      · rename_i items hIter
        obtain ⟨rs, hrs, rfl⟩ := except_map_eq_ok.mp h
        have hAll := validateItems_typed hc (hv.iterItems hReg hIter) hrs
        exact ⟨.list fun r hr => (hAll r hr).1,
          hReg.genuine (by simp [PyVal.typeName, builtinTypeNames]) fun r hr => (hAll r hr).2⟩
      · cases h
  | tuple ts =>
      simp only [validateValue, validateTuple] at h
      split at h
      · rename_i items hIter
        obtain ⟨rs, hrs, rfl⟩ := except_map_eq_ok.mp h
        obtain ⟨hT, hG⟩ := validatePairs_typed hc (hv.iterItems hReg hIter) hrs
        exact ⟨hT, hReg.genuine (by simp [PyVal.typeName, builtinTypeNames]) hG⟩
      · split at h
        · split_ifs at h
          cases h
          exact ⟨.tuple (by simp) (by simp),
            hReg.genuine (by simp [PyVal.typeName, builtinTypeNames]) nofun⟩
        · cases h
  | float | noneType | union _ =>
      simp only [validateValue] at h
      cases h

theorem validateStep_typed {T : Descriptor} {v : PyVal} {p : String} {r : PyVal}
    (hv : Genuine reg v) (h : validateStep reg c T v p = .ok r) :
    HasType reg T r ∧ Genuine reg r := by
  unfold validateStep at h
  split at h
  · split at h <;> cases h
    exact ⟨.noneType, hv⟩
  · obtain ⟨w, hw, hr⟩ := unionVariants_eq_ok h
    exact (hc.validate _ _ _ _ hv hr).imp_left (.union hw)
  · split at h
    · cases h
    · exact validateValue_typed hReg hc hv h

/-- Each field gets a typed, genuine value: a default read off a registered class, a
transformation function's result or the source's value, each validated against the field's
type. -/
theorem assignOne_typed {n : String} {cls : SchemaClass} {attrs : List (String × PyVal)}
    {selfSource source : PyVal} {p name : String} {T : Descriptor} {v : PyVal} {u : Bool}
    (hS : reg.schema? n = some cls) (hSrc : Genuine reg source)
    (h : assignOne reg c cls attrs selfSource source p name T = .ok (v, u)) :
    HasType reg T v ∧ Genuine reg v := by
  unfold assignOne at h
  split at h
  · obtain ⟨hd, -⟩ := except_map_pair_eq_ok.mp h
    refine hc.validate _ _ _ _ ?_ hd
    cases hA : cls.classAttr name with
    | none =>
        have hNone : Genuine reg .none := hReg.genuine_scalar rfl
        simpa [hA] using hNone
    | some a => simpa [hA] using (classAttr_genuine hReg hS hA).toValue hReg (cls.name ++ "." ++ name)
  · cases h
  · obtain ⟨w, hw, h⟩ := except_bind_eq_ok.mp h
    obtain ⟨r, hr, h⟩ := except_bind_eq_ok.mp h
    cases h
    exact hc.validate _ _ _ _ (getConvertedValue_genuine hReg hS hSrc hw) hr
  · rename_i w hB
    obtain ⟨hd, -⟩ := except_map_pair_eq_ok.mp h
    exact hc.validate _ _ _ _ (sourceGet_genuine hReg hSrc (sourceGet_of_fieldBranch hB)) hd
  · cases h

omit hReg in
theorem previousSource_genuine {cls : SchemaClass} {source effective : PyVal} {p : String}
    (hSrc : Genuine reg source) (h : previousSource reg c cls source p = .ok effective) :
    Genuine reg effective := by
  unfold previousSource at h
  split at h
  · cases h
    exact hSrc
  · split at h
    · exact (hc.init _ _ _ _ _ (by assumption) hSrc h).2
    · cases h

/-- A construction of a registered class returns an instance of it holding one typed, genuine
value per field, in declaration order. -/
theorem initStep_typed {n : String} {S : SchemaClass} {x : PyVal} {p : String} {r : PyVal}
    (hS : reg.schema? n = some S) (hx : Genuine reg x) (h : initStep reg c S x p = .ok r) :
    HasType reg (.schema n) r ∧ Genuine reg r := by
  obtain ⟨effective, attrs, used, hPrev, hFields, -, -, rfl⟩ := initStep_eq_ok h
  have hSrc : Genuine reg (normalizeSource x) := by
    cases x with
    | none =>
        show Genuine reg (.dict [])
        exact hReg.genuine (by simp [PyVal.typeName, builtinTypeNames]) nofun
    | _ => exact hx
  obtain ⟨rs, hrs, hF⟩ := assignFields_forall₂ hFields
  rw [List.nil_append] at hrs
  subst hrs
  have hTyped : List.Forall₂ (fun f a => a.1 = f.1 ∧ HasType reg f.2 a.2 ∧ Genuine reg a.2)
      S.fields attrs := hF.imp fun f a ⟨hName, _, _, hOne⟩ =>
    ⟨hName, assignOne_typed hReg hc hS (previousSource_genuine hc hSrc hPrev) hOne⟩
  have hNode : HasType reg (.schema n) (.node n attrs (normalizeSource x)) :=
    .node hS (forall₂_map_fst hTyped) fun q hq => ((List.forall₂_iff_zip.mp hTyped).2 hq).2.1
  rw [hReg.name n S hS]
  refine ⟨hNode, .intro (fun _ _ => hNode) fun w hw => ?_⟩
  rcases List.mem_cons.mp hw with rfl | hw
  · exact hSrc
  · obtain ⟨a, ha, rfl⟩ := List.mem_map.mp hw
    obtain ⟨f, -, -, -, hG⟩ := forall₂_exists_of_mem_right hTyped a ha
    exact hG

/-- The step lemma: one more level of recursion keeps the calls typed. -/
theorem TypedCalls.step : TypedCalls reg (c.step reg) :=
  ⟨fun _ _ _ _ hv h => validateStep_typed hReg hc hv h,
    fun _ _ _ _ _ hS hx h => initStep_typed hReg hc hS hx h⟩

end Step

/-- The run lemma: the calls are typed at every fuel. -/
theorem typedCalls_calls {reg : Registry} (hReg : TypedRegistry reg) :
    ∀ n, TypedCalls reg (calls reg n)
  | 0 => ⟨fun _ _ _ _ _ h => (nomatch h), fun _ _ _ _ _ _ _ h => (nomatch h)⟩
  | n + 1 => (typedCalls_calls hReg n).step hReg

/-- Validation returns what its descriptors say: from a genuine value, whatever
`_validated_object_type` returns has its descriptor's type, and whatever constructing a
registered class returns is an instance of it whose fields have their declared types. -/
theorem validated_values_typed {reg : Registry} (hReg : TypedRegistry reg) (fuel : Nat) :
    (∀ T v p r, Genuine reg v → validatedObjectType reg fuel T v p = .ok r → HasType reg T r) ∧
    (∀ n S x p r, reg.schema? n = some S → Genuine reg x → schemaNode reg fuel S x p = .ok r →
      HasType reg (.schema n) r) :=
  ⟨fun T v p r hv h => ((typedCalls_calls hReg fuel).validate T v p r hv h).1,
    fun n S x p r hS hx h => ((typedCalls_calls hReg fuel).init n S x p r hS hx h).1⟩

/-- `Endpoint` with `address: str`, defaulting to `"localhost"`, and `port: int`, which
`_port` computes. -/
def endpointSchema : SchemaClass :=
  ⟨"Endpoint", [("address", .str), ("port", .int)],
    [("address", .value (.str "localhost")), ("_port", .method 1 fun _ => .ok (.int 53))], none,
    by decide⟩

def endpointRegistry : Registry :=
  ⟨fun n => if n = "Endpoint" then some endpointSchema else none,
    fun n => ⟨fun _ _ => .error (.name ("name '" ++ n ++ "' is not defined"))⟩⟩

theorem endpointRegistry_typed : TypedRegistry endpointRegistry where
  name n S h := by
    simp only [endpointRegistry] at h
    split_ifs at h with hn
    cases h
    exact hn.symm
  builtin n hn := by
    simp only [builtinTypeNames, List.mem_cons, List.mem_singleton, List.not_mem_nil,
      or_false] at hn
    rcases hn with rfl | rfl | rfl | rfl | rfl | rfl | rfl | rfl <;> rfl
  leaf _ _ _ _ _ _ h := nomatch h
  attrs n S k a hS hk := by
    simp only [endpointRegistry] at hS
    split_ifs at hS
    cases hS
    have hScalar : ∀ v : PyVal, v.typeName ∈ builtinTypeNames → v.children = [] →
        Genuine endpointRegistry v := fun v hName hc => .of_unregistered (by
      simp only [builtinTypeNames, List.mem_cons, List.mem_singleton, List.not_mem_nil,
        or_false] at hName
      rcases hName with h | h | h | h | h | h | h | h <;> rw [h] <;> rfl) (by simp [hc])
    simp only [endpointSchema, List.lookup_cons, List.lookup_nil] at hk
    split at hk
    · cases hk
      exact hScalar _ (by simp [PyVal.typeName, builtinTypeNames]) rfl
    · split at hk
      · cases hk
        intro _ _ _ h
        cases h
        exact hScalar _ (by simp [PyVal.typeName, builtinTypeNames]) rfl
      · cases hk

/-- `Endpoint` validated, and constructed, from the empty map: the address takes its default,
the port its computed value, and the instance has the type `Endpoint` with both fields typed. -/
theorem endpoint_instance_typed :
    validatedObjectType endpointRegistry 3 (.schema "Endpoint") (.dict []) "" =
        .ok (.node "Endpoint" [("address", .str "localhost"), ("port", .int 53)] (.dict [])) ∧
      schemaNode endpointRegistry 2 endpointSchema (.dict []) "" =
        .ok (.node "Endpoint" [("address", .str "localhost"), ("port", .int 53)] (.dict [])) ∧
      HasType endpointRegistry (.schema "Endpoint")
        (.node "Endpoint" [("address", .str "localhost"), ("port", .int 53)] (.dict [])) :=
  have hv : Genuine endpointRegistry (.dict []) := endpointRegistry_typed.genuine_of_isTree
    (.dict (fun _ h => nomatch h) (fun _ h => nomatch h) List.Pairwise.nil)
  have hVal : validatedObjectType endpointRegistry 3 (.schema "Endpoint") (.dict []) "" =
      .ok (.node "Endpoint" [("address", .str "localhost"), ("port", .int 53)] (.dict [])) := rfl
  ⟨hVal, rfl, (validated_values_typed endpointRegistry_typed 3).1 _ _ _ _ hv hVal⟩

end KnotSchema
