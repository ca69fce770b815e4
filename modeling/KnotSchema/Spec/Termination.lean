import KnotSchema.Schema.Steps

/-! Termination of the mutual recursion of `_validated_object_type` and `SchemaNode.__init__`.
A nested schema is built only from a map or a schema instance, and every field of an instance
is assigned from an entry, an attribute, a class-level value or a transformation's result. A
class-level value is read from a source only when the source is an instance: the instance of a
`_PREVIOUS_SCHEMA` class, or one nested in the fields of such an instance. So the recursion
ends when the previous-schema links are ranked, transformation results hold no map and no
schema instance, a default of a field that nests a schema holds none either, and so do the
class-level values of the classes whose instances are read as sources: the previous schemas
and, in turn, the classes their fields nest. Other classes may have any defaults. The measure
is the nesting depth of maps and instances in the value, then the previous-schema rank, then the
descriptor's size. Without the condition on sources it need not end: a previous schema's default
`{}` can reach a nested schema of the class that built it, directly or through an instance
nested in the previous schema's fields. -/
namespace KnotSchema

/-! ### The measure -/

mutual
/-- How deeply maps and schema instances nest in a value. An instance counts its assigned
fields, not its `_source`, which no field lookup reaches. -/
def PyVal.depth : PyVal → Nat
  | .list xs => depthItems xs
  | .tuple xs => depthItems xs
  | .dict es => depthEntries es + 1
  | .node _ attrs _ => depthAttrs attrs + 1
  | _ => 0

/-- The deepest item. -/
def depthItems : List PyVal → Nat
  | [] => 0
  | x :: xs => max x.depth (depthItems xs)

/-- The deepest key or value. -/
def depthEntries : List (PyVal × PyVal) → Nat
  | [] => 0
  | (k, v) :: es => max (max k.depth v.depth) (depthEntries es)

/-- The deepest field value. -/
def depthAttrs : List (String × PyVal) → Nat
  | [] => 0
  | (_, v) :: as => max v.depth (depthAttrs as)
end

theorem depthItems_le_iff {xs : List PyVal} {d : Nat} :
    depthItems xs ≤ d ↔ ∀ x ∈ xs, x.depth ≤ d := by
  induction xs with
  | nil => simp [depthItems]
  | cons x xs ih => simp [depthItems, ih, Nat.max_le]

theorem depthEntries_le_iff {es : List (PyVal × PyVal)} {d : Nat} :
    depthEntries es ≤ d ↔ ∀ e ∈ es, e.1.depth ≤ d ∧ e.2.depth ≤ d := by
  induction es with
  | nil => simp [depthEntries]
  | cons e es ih => simp [depthEntries, ih, and_assoc, Nat.max_le]

theorem depthAttrs_le_iff {as : List (String × PyVal)} {d : Nat} :
    depthAttrs as ≤ d ↔ ∀ a ∈ as, a.2.depth ≤ d := by
  induction as with
  | nil => simp [depthAttrs]
  | cons a as ih => simp [depthAttrs, ih, Nat.max_le]

/-- A map's keys and values are no deeper than the map. -/
theorem depth_entry_le {es : List (PyVal × PyVal)} {kv : PyVal × PyVal} (h : kv ∈ es) :
    kv.1.depth ≤ (PyVal.dict es).depth ∧ kv.2.depth ≤ (PyVal.dict es).depth := by
  have := depthEntries_le_iff.mp le_rfl kv h
  simp only [PyVal.depth]
  omega

mutual
/-- The number of constructors in a descriptor. -/
def Descriptor.size : Descriptor → Nat
  | .union vs => Descriptor.sizes vs + 1
  | .list t => t.size + 1
  | .dict k v => k.size + v.size + 1
  | .tuple ts => Descriptor.sizes ts + 1
  | _ => 1

/-- The sizes of a list of descriptors, added up. -/
def Descriptor.sizes : List Descriptor → Nat
  | [] => 0
  | t :: ts => t.size + Descriptor.sizes ts
end

theorem Descriptor.size_lt_sizes {t : Descriptor} {ts : List Descriptor} (h : t ∈ ts) :
    t.size < Descriptor.sizes ts + 1 := by
  induction ts with
  | nil => cases h
  | cons u us ih =>
      rcases List.mem_cons.mp h with rfl | h
      · simp only [Descriptor.sizes]
        omega
      · have := ih h
        simp only [Descriptor.sizes]
        omega

mutual
/-- The schema classes a descriptor nests, by name. -/
def Descriptor.schemaNames : Descriptor → List String
  | .union vs => Descriptor.schemaNamesOf vs
  | .list t => t.schemaNames
  | .dict k v => k.schemaNames ++ v.schemaNames
  | .tuple ts => Descriptor.schemaNamesOf ts
  | .schema n => [n]
  | _ => []

/-- The schema classes a list of descriptors nests. -/
def Descriptor.schemaNamesOf : List Descriptor → List String
  | [] => []
  | t :: ts => t.schemaNames ++ Descriptor.schemaNamesOf ts
end

theorem Descriptor.schemaNames_subset {t : Descriptor} {ts : List Descriptor} (h : t ∈ ts) :
    t.schemaNames ⊆ Descriptor.schemaNamesOf ts := by
  induction ts with
  | nil => cases h
  | cons u us ih =>
      rcases List.mem_cons.mp h with rfl | h
      · exact List.subset_append_left _ _
      · exact fun m hm => List.mem_append_right _ (ih h hm)

mutual
/-- Whether every schema instance in a value, down through maps, sequences and instances'
fields, is of a class `sourced` admits. An instance's `_source` is not looked at: no field
lookup reaches it. -/
def PyVal.nodesIn (sourced : String → Bool) : PyVal → Bool
  | .list xs => nodesInItems sourced xs
  | .tuple xs => nodesInItems sourced xs
  | .dict es => nodesInEntries sourced es
  | .node cls attrs _ => sourced cls && nodesInAttrs sourced attrs
  | _ => true

/-- Whether every item's instances are admitted. -/
def nodesInItems (sourced : String → Bool) : List PyVal → Bool
  | [] => true
  | x :: xs => x.nodesIn sourced && nodesInItems sourced xs

/-- Whether every key's and value's instances are admitted. -/
def nodesInEntries (sourced : String → Bool) : List (PyVal × PyVal) → Bool
  | [] => true
  | (k, v) :: es => k.nodesIn sourced && v.nodesIn sourced && nodesInEntries sourced es

/-- Whether every field value's instances are admitted. -/
def nodesInAttrs (sourced : String → Bool) : List (String × PyVal) → Bool
  | [] => true
  | (_, v) :: as => v.nodesIn sourced && nodesInAttrs sourced as
end

section NodesIn

variable {sourced : String → Bool}

theorem nodesInItems_iff {xs : List PyVal} :
    nodesInItems sourced xs = true ↔ ∀ x ∈ xs, x.nodesIn sourced = true := by
  induction xs with
  | nil => simp [nodesInItems]
  | cons x xs ih => simp [nodesInItems, ih]

theorem nodesInEntries_iff {es : List (PyVal × PyVal)} :
    nodesInEntries sourced es = true ↔
      ∀ e ∈ es, e.1.nodesIn sourced = true ∧ e.2.nodesIn sourced = true := by
  induction es with
  | nil => simp [nodesInEntries]
  | cons e es ih => simp [nodesInEntries, ih, and_assoc]

theorem nodesInAttrs_iff {as : List (String × PyVal)} :
    nodesInAttrs sourced as = true ↔ ∀ a ∈ as, a.2.nodesIn sourced = true := by
  induction as with
  | nil => simp [nodesInAttrs]
  | cons a as ih => simp [nodesInAttrs, ih]

mutual
/-- A value with no map and no instance holds no instance of any class. -/
theorem PyVal.nodesIn_of_depth_eq_zero : ∀ v : PyVal, v.depth = 0 → v.nodesIn sourced = true
  | .list xs, h | .tuple xs, h => nodesInItems_of_depth_eq_zero xs h
  | .dict _, h | .node _ _ _, h => absurd h (Nat.succ_ne_zero _)
  | .none, _ | .bool _, _ | .int _, _ | .str _, _ | .custom _ _ _, _ | .enum _ _, _ | .func _, _ =>
      rfl

theorem nodesInItems_of_depth_eq_zero :
    ∀ xs : List PyVal, depthItems xs = 0 → nodesInItems sourced xs = true
  | [], _ => rfl
  | x :: xs, h => by
      have hx : x.depth = 0 := by simp only [depthItems] at h; omega
      have hxs : depthItems xs = 0 := by simp only [depthItems] at h; omega
      simp only [nodesInItems, PyVal.nodesIn_of_depth_eq_zero x hx,
        nodesInItems_of_depth_eq_zero xs hxs, Bool.and_self]
end

/-- A value with no map and no instance is shallower than any source, and admitted. -/
theorem shallow_of_depth_eq_zero {v source : PyVal} (h : v.depth = 0) :
    v.depth < max source.depth 1 ∧ v.nodesIn sourced = true :=
  ⟨by omega, PyVal.nodesIn_of_depth_eq_zero v h⟩

/-- What iterating a value visits is no deeper than the value, and admitted when the value is. -/
theorem iterItems_within (sourced : String → Bool) {v : PyVal} {items : List PyVal}
    (h : v.iterItems = some items) :
    ∀ x ∈ items, x.depth ≤ v.depth ∧ (v.nodesIn sourced = true → x.nodesIn sourced = true) := by
  cases v with
  | list xs =>
      cases h
      exact fun x hx => ⟨depthItems_le_iff.mp le_rfl x hx, fun hv => nodesInItems_iff.mp hv x hx⟩
  | tuple xs =>
      cases h
      exact fun x hx => ⟨depthItems_le_iff.mp le_rfl x hx, fun hv => nodesInItems_iff.mp hv x hx⟩
  | str s =>
      cases h
      intro x hx
      obtain ⟨ch, -, rfl⟩ := List.mem_map.mp hx
      exact ⟨le_rfl, fun _ => rfl⟩
  | dict es =>
      cases h
      intro x hx
      obtain ⟨e, he, rfl⟩ := List.mem_map.mp hx
      exact ⟨(depth_entry_le he).1, fun hv => (nodesInEntries_iff.mp hv e he).1⟩
  | _ => cases h

theorem nodesIn_normalizeSource {x : PyVal} (hx : x.nodesIn sourced = true) :
    (normalizeSource x).nodesIn sourced = true := by
  cases x <;> first | rfl | exact hx

end NodesIn

/-! ### The conditions -/

/-- The conditions on a schema class under which construction ends, for the classes `sourced`
admits as sources, a rank of the previous-schema links and a bound on ranks and on the sizes of
field descriptors: its previous schema ranks below it and is admitted as a source; a default of
a field whose descriptor nests a schema holds no map and no schema instance, nor does a result
of its functions; and its functions, Python code, never stop for want of fuel. -/
structure Tame (reg : Registry) (sourced : String → Bool) (rank : SchemaClass → Nat)
    (bound : Nat) (S : SchemaClass) : Prop where
  rank_lt : rank S < bound
  size_lt : ∀ f ∈ S.annotations, f.2.size < bound
  previous_lt : ∀ p P, S.previous = some p → reg.schema? p = some P → rank P < rank S
  previous_sourced : ∀ p, S.previous = some p → sourced p = true
  defaults_flat : ∀ f ∈ S.annotations, f.2.schemaNames ≠ [] →
    ∀ v, (f.1, Attr.value v) ∈ S.attrs → v.depth = 0
  methods_flat : ∀ name k body, (name, Attr.method k body) ∈ S.attrs →
    ∀ v r, body v = .ok r → r.depth = 0
  methods_finish : ∀ name k body, (name, Attr.method k body) ∈ S.attrs →
    ∀ v, body v ≠ .error .outOfFuel

/-- A class registered under `n` whose instances may be read as a source: a previous schema, or
a class nested in the fields of one. It is registered under its own name, its class-level values
hold no map and no schema instance, and the classes its fields nest are admitted as sources
too. -/
structure Sourced (sourced : String → Bool) (n : String) (P : SchemaClass) : Prop where
  name_eq : P.name = n
  values_flat : ∀ name v, (name, Attr.value v) ∈ P.attrs → v.depth = 0
  fields_sourced : ∀ f ∈ P.annotations, ∀ m ∈ f.2.schemaNames, sourced m = true

section Flat

variable {reg : Registry} {sourced : String → Bool} {rank : SchemaClass → Nat} {bound : Nat}
  {S : SchemaClass}

/-- What `getattr` finds on a tame class: a value holds no map and no instance when the class's
own values at that name hold none, and a function returns such values and never stops for want
of fuel. `SchemaNode`'s own members and `_PREVIOUS_SCHEMA` are of that kind. -/
theorem classAttr_flat (hS : Tame reg sourced rank bound S) {name : String} {a : Attr}
    (h : S.classAttr name = some a) :
    ((∀ v, (name, Attr.value v) ∈ S.attrs → v.depth = 0) → ∀ v, a = .value v → v.depth = 0) ∧
      ∀ k body, a = .method k body →
        (∀ v r, body v = .ok r → r.depth = 0) ∧ ∀ v, body v ≠ .error .outOfFuel := by
  unfold SchemaClass.classAttr at h
  split at h
  · cases hPrev : S.previous <;> simp only [hPrev, previousAttr, Option.some.injEq] at h <;>
      subst h <;> simp [PyVal.depth]
  · split at h
    · rename_i hLookup
      cases h
      obtain ⟨l₁, l₂, hAttrs, -⟩ := List.lookup_eq_some_iff.mp hLookup
      have hMem : (name, a) ∈ S.attrs := by simp [hAttrs]
      exact ⟨fun hFlat v hv => hFlat v (hv ▸ hMem), fun k body hb =>
        ⟨hS.methods_flat name k body (hb ▸ hMem), hS.methods_finish name k body (hb ▸ hMem)⟩⟩
    · unfold schemaNodeMethod at h
      split at h <;> cases h <;> simp [PyVal.depth]

/-- A class attribute read as a value, at a name whose class-level values hold no map and no
instance, holds none either. -/
theorem depth_classValue (hS : Tame reg sourced rank bound S) {name q : String} {v : PyVal}
    (hFlat : ∀ w, (name, Attr.value w) ∈ S.attrs → w.depth = 0)
    (h : (S.classAttr name).map (Attr.toValue q) = some v) : v.depth = 0 := by
  obtain ⟨a, hA, rfl⟩ := Option.map_eq_some'.mp h
  cases a with
  | value v => exact (classAttr_flat hS hA).1 hFlat v rfl
  | method k body => rfl

/-- A class-level default, or `None`, at such a name holds no map and no instance. -/
theorem depth_classDefault (hS : Tame reg sourced rank bound S) {name : String}
    (hFlat : ∀ w, (name, Attr.value w) ∈ S.attrs → w.depth = 0) (q : String) :
    (((S.classAttr name).map (Attr.toValue q)).getD .none).depth = 0 := by
  cases h : (S.classAttr name).map (Attr.toValue q) with
  | none => rfl
  | some v => exact depth_classValue hS hFlat h

/-- A transformation function's value holds no map and no instance, and its call never stops
for want of fuel. -/
theorem getConvertedValue_flat (hS : Tame reg sourced rank bound S) (key : String)
    (source : PyVal) (path : String) :
    (∀ r, getConvertedValue S key source path = .ok r → r.depth = 0) ∧
      getConvertedValue S key source path ≠ .error .outOfFuel := by
  unfold getConvertedValue
  cases hA : S.classAttr ("_" ++ key) with
  | none => simp
  | some a =>
      cases a with
      | value v => simp
      | method k body =>
          obtain ⟨hFlat, hFinish⟩ := (classAttr_flat hS hA).2 k body rfl
          simp only
          split_ifs
          · cases hb : body source with
            | ok r => simpa using hFlat source r hb
            | error e =>
                have := hFinish source
                cases e <;> simp_all
          · simp

/-- `_validate` never stops for want of fuel. -/
theorem callValidate_finishes (hS : Tame reg sourced rank bound S) (inst : PyVal)
    (path : String) : callValidate S inst path ≠ .error .outOfFuel := by
  unfold callValidate
  cases hA : S.classAttr "_validate" with
  | none => simp
  | some a =>
      cases a with
      | value v => simp
      | method k body =>
          have hFinish := ((classAttr_flat hS hA).2 k body rfl).2 inst
          simp only
          split_ifs
          · cases hb : body inst with
            | ok r => simp
            | error e => cases e <;> simp_all
          · simp

end Flat

/-- On values whose instances are of admitted classes, and for descriptors and classes that
nest only admitted classes, the two calls return nothing deeper than what they were given, and
only instances of admitted classes; a construction returns an instance, one level above the
fields it assigns from the source. -/
structure DepthBounded (reg : Registry) (sourced : String → Bool) (c : Calls) : Prop where
  validate : ∀ T w p r, (∀ m ∈ T.schemaNames, sourced m = true) → w.nodesIn sourced = true →
    c.validate T w p = .ok r → r.depth ≤ w.depth ∧ r.nodesIn sourced = true
  init : ∀ n S x p r, sourced n = true → reg.schema? n = some S → x.nodesIn sourced = true →
    c.init S x p = .ok r → r.depth ≤ max x.depth 1 ∧ r.nodesIn sourced = true

theorem depth_normalizeSource (x : PyVal) : (normalizeSource x).depth ≤ max x.depth 1 := by
  cases x <;> simp only [normalizeSource, PyVal.depth, depthEntries] <;> omega

/-- The source the fields are assigned from is no deeper than the normalised source allows,
and its instances are admitted when the source's are. -/
theorem depth_previousSource {reg : Registry} {sourced : String → Bool}
    {rank : SchemaClass → Nat} {bound : Nat} {c : Calls} (hc : DepthBounded reg sourced c)
    {S : SchemaClass} (hS : Tame reg sourced rank bound S) {x effective : PyVal} {p : String}
    (hx : x.nodesIn sourced = true)
    (h : previousSource reg c S (normalizeSource x) p = .ok effective) :
    effective.depth ≤ max x.depth 1 ∧ effective.nodesIn sourced = true := by
  have hNorm := depth_normalizeSource x
  unfold previousSource at h
  split at h
  · cases h
    exact ⟨hNorm, nodesIn_normalizeSource hx⟩
  · rename_i q hq
    split at h
    · rename_i P hP
      have := hc.init _ _ _ _ _ (hS.previous_sourced q hq) hP (nodesIn_normalizeSource hx) h
      exact ⟨by omega, this.2⟩
    · cases h

section Family

variable {reg : Registry} {sourced : String → Bool} {rank : SchemaClass → Nat} {bound : Nat}
  (hFamily : ∀ n P, reg.schema? n = some P → Tame reg sourced rank bound P)
  (hSourced : ∀ n P, sourced n = true → reg.schema? n = some P → Sourced sourced n P)

include hFamily hSourced in
/-- A field's value read from a source whose instances are admitted is shallower than the
source, and admitted: an entry's value, an instance's field, or a class-level value of an
admitted class. -/
theorem depth_sourceGet {source v : PyVal} {name : String}
    (hSource : source.nodesIn sourced = true) (hInternal : isInternalFieldName name = false)
    (h : sourceGet reg source name = some v) :
    v.depth < max source.depth 1 ∧ v.nodesIn sourced = true := by
  cases source with
  | dict es =>
      obtain ⟨e, he, rfl⟩ := Option.map_eq_some'.mp h
      have hMem := List.mem_of_find?_eq_some he
      have := (depthEntries_le_iff.mp le_rfl e hMem).2
      exact ⟨by simp only [PyVal.depth]; omega, (nodesInEntries_iff.mp hSource e hMem).2⟩
  | node cls attrs src =>
      have hName : name ≠ "_source" := by
        rintro rfl
        cases hInternal
      simp only [PyVal.nodesIn, Bool.and_eq_true] at hSource
      have hAttr : ∀ b, attrs.lookup name = some b →
          b.depth < max (PyVal.node cls attrs src).depth 1 ∧ b.nodesIn sourced = true :=
        fun b hb => by
          have hMem := mem_of_lookup_eq_some hb
          have : b.depth ≤ depthAttrs attrs := depthAttrs_le_iff.mp le_rfl _ hMem
          exact ⟨by simp only [PyVal.depth]; omega, nodesInAttrs_iff.mp hSource.2 _ hMem⟩
      simp only [sourceGet, nodeAttr] at h
      split at h
      · rename_i P hP
        simp only [SchemaClass.instanceAttr, hName, if_false] at h
        split at h
        · rename_i hb
          cases h
          exact hAttr _ hb
        · exact shallow_of_depth_eq_zero (depth_classValue (hFamily _ _ hP)
            ((hSourced _ _ hSource.1 hP).values_flat name) h)
      · simp only [hName, if_false] at h
        exact hAttr _ h
  | _ => cases h

include hFamily hSourced in
/-- One field of a tame class is the validation of a value, or fails with an exception other
than running out of fuel. The value is shallower than a source whose instances are admitted,
and admitted, unless it is a class-level value at a name whose values may be deep. -/
theorem assignOne_cases {c : Calls} {S : SchemaClass} (hS : Tame reg sourced rank bound S)
    {attrs : List (String × PyVal)} {selfSource source : PyVal} {path name : String}
    {T : Descriptor} {r : Except PyErr (PyVal × Bool)} (hSource : source.nodesIn sourced = true)
    (hInternal : isInternalFieldName name = false)
    (h : assignOne reg c S attrs selfSource source path name T = r) :
    (∃ a b, ((∀ v, (name, Attr.value v) ∈ S.attrs → v.depth = 0) →
        a.depth < max source.depth 1 ∧ a.nodesIn sourced = true) ∧
      r = (fun v => (v, b)) <$> c.validate T a (path ++ "/" ++ name)) ∨
    ∃ e, e ≠ .outOfFuel ∧ r = .error e := by
  subst h
  unfold assignOne
  cases hB : fieldBranch reg S attrs selfSource source name T with
  | default =>
      exact .inl ⟨_, false, fun hFlat => shallow_of_depth_eq_zero (depth_classDefault hS hFlat _),
        rfl⟩
  | conflict => exact .inr ⟨_, by simp, rfl⟩
  | transform =>
      obtain ⟨hFlat, hFinish⟩ := getConvertedValue_flat hS name source path
      cases hG : getConvertedValue S name source path with
      | ok a =>
          refine .inl ⟨a, true, fun _ => shallow_of_depth_eq_zero (hFlat a hG), ?_⟩
          show c.validate T a (path ++ "/" ++ name) >>= (fun r => pure (r, true)) = _
          cases c.validate T a (path ++ "/" ++ name) <;> rfl
      | error e => exact .inr ⟨e, fun he => hFinish (he ▸ hG), rfl⟩
  | direct v =>
      exact .inl ⟨v, true, fun _ => depth_sourceGet hFamily hSourced hSource hInternal
        (sourceGet_of_fieldBranch hB), rfl⟩
  | missing => exact .inr ⟨_, by simp, rfl⟩

theorem validateStep_depth {c : Calls} (hc : DepthBounded reg sourced c) {T : Descriptor}
    {w : PyVal} {p : String} {r : PyVal} (hT : ∀ m ∈ T.schemaNames, sourced m = true)
    (hw : w.nodesIn sourced = true) (h : validateStep reg c T w p = .ok r) :
    r.depth ≤ w.depth ∧ r.nodesIn sourced = true := by
  cases T with
  | union vs =>
      obtain ⟨v, hv, hOk⟩ := unionVariants_eq_ok h
      exact hc.validate _ _ _ _ (fun m hm => hT m (Descriptor.schemaNames_subset hv hm)) hw hOk
  | dict K V =>
      obtain ⟨es, d, rfl, hd, rfl⟩ := validateStep_dict_of_ok h
      obtain ⟨ps, hps, rfl⟩ := validateEntries_eq_ok.mp hd
      have hPairs : ∀ q ∈ ps, (q.1.depth ≤ depthEntries es ∧ q.1.nodesIn sourced = true) ∧
          q.2.depth ≤ depthEntries es ∧ q.2.nodesIn sourced = true := by
        intro q hq
        obtain ⟨e, he, hk, hv, -⟩ := forall₂_exists_of_mem_right hps q hq
        have hDepth := depthEntries_le_iff.mp le_rfl e he
        have hIn := nodesInEntries_iff.mp hw e he
        have hKey := hc.validate _ _ _ _ (fun m hm => hT m (List.mem_append_left _ hm)) hIn.1 hk
        have hVal := hc.validate _ _ _ _ (fun m hm => hT m (List.mem_append_right _ hm)) hIn.2 hv
        exact ⟨⟨hKey.1.trans hDepth.1, hKey.2⟩, hVal.1.trans hDepth.2, hVal.2⟩
      have hAll := @forall_dictOfPairs (fun k => k.depth ≤ depthEntries es ∧ k.nodesIn sourced)
        (fun v => v.depth ≤ depthEntries es ∧ v.nodesIn sourced) [] ps (by simp) hPairs
      have := depthEntries_le_iff.mpr fun e he => ⟨(hAll e he).1.1, (hAll e he).2.1⟩
      exact ⟨by simp only [PyVal.depth]; omega,
        nodesInEntries_iff.mpr fun e he => ⟨(hAll e he).1.2, (hAll e he).2.2⟩⟩
  | list E =>
      obtain ⟨items, rs, hIter, hItems, rfl⟩ := validateStep_list_eq_ok h
      have hAll : ∀ r ∈ rs, r.depth ≤ w.depth ∧ r.nodesIn sourced = true := fun r hr => by
        obtain ⟨x, hx, hOk⟩ := forall₂_exists_of_mem_right (validateItems_eq_ok.mp hItems) r hr
        obtain ⟨hDepth, hIn⟩ := iterItems_within sourced hIter x hx
        have := hc.validate E _ _ _ hT (hIn hw) hOk
        exact ⟨this.1.trans hDepth, this.2⟩
      exact ⟨depthItems_le_iff.mpr fun r hr => (hAll r hr).1,
        nodesInItems_iff.mpr fun r hr => (hAll r hr).2⟩
  | tuple ts =>
      rcases validateStep_tuple_eq_ok h with ⟨items, rs, hIter, hPairs, rfl⟩ | ⟨-, rfl⟩
      · have hAll : ∀ r ∈ rs, r.depth ≤ w.depth ∧ r.nodesIn sourced = true := fun r hr => by
          obtain ⟨q, hq, hOk⟩ := forall₂_exists_of_mem_right (validatePairs_eq_ok.mp hPairs) r hr
          obtain ⟨hDepth, hIn⟩ := iterItems_within sourced hIter q.2 (List.of_mem_zip hq).2
          have := hc.validate _ _ _ _
            (fun m hm => hT m (Descriptor.schemaNames_subset (List.of_mem_zip hq).1 hm))
            (hIn hw) hOk
          exact ⟨this.1.trans hDepth, this.2⟩
        exact ⟨depthItems_le_iff.mpr fun r hr => (hAll r hr).1,
          nodesInItems_iff.mpr fun r hr => (hAll r hr).2⟩
      · exact ⟨Nat.zero_le _, rfl⟩
  | schema n =>
      simp only [validateStep, validateValue] at h
      split at h
      · cases h
      · split at h
        · cases h
          exact ⟨le_rfl, hw⟩
        · split at h
          · rename_i S hS
            have hPos : 1 ≤ w.depth := by
              split at h <;> simp_all [PyVal.depth]
            have hInit : c.init S w p = .ok r := by split at h <;> first | exact h | cases h
            have := hc.init _ _ _ _ _ (hT n (List.mem_singleton_self n)) hS hw hInit
            exact ⟨by omega, this.2⟩
          · cases h
  | leaf n =>
      simp only [validateStep, validateValue] at h
      split at h
      · cases h
      · split at h
        · cases h
          exact ⟨le_rfl, hw⟩
        · obtain ⟨a, -, rfl⟩ := except_map_eq_ok.mp h
          exact ⟨Nat.zero_le _, rfl⟩
  | _ =>
      simp only [validateStep, validateValue, validateInt, validateStr] at h
      repeat' split at h
      all_goals (cases h <;> exact ⟨le_rfl, hw⟩)

include hFamily hSourced in
theorem initStep_depth {c : Calls} (hc : DepthBounded reg sourced c) {n : String}
    {S : SchemaClass} (hn : sourced n = true) (hS : reg.schema? n = some S) {x : PyVal}
    {p : String} {r : PyVal} (hx : x.nodesIn sourced = true) (h : initStep reg c S x p = .ok r) :
    r.depth ≤ max x.depth 1 ∧ r.nodesIn sourced = true := by
  have hTame := hFamily n S hS
  have hSrc := hSourced n S hn hS
  obtain ⟨effective, attrs, used, hPrev, hFields, -, -, rfl⟩ := initStep_eq_ok h
  obtain ⟨hEffDepth, hEffIn⟩ := depth_previousSource hc hTame hx hPrev
  have hAttrs : ∀ a ∈ attrs, a.2.depth < max x.depth 1 ∧ a.2.nodesIn sourced = true := by
    intro a ha
    rcases assignFields_values hFields a ha with ha | ⟨f, hf, hInt, as, u, hOne⟩
    · cases ha
    · rcases assignOne_cases hFamily hSourced hTame hEffIn hInt hOne with
        ⟨b, bb, hb, hEq⟩ | ⟨e, -, hEq⟩
      · obtain ⟨hOk, -⟩ := except_map_pair_eq_ok.mp hEq.symm
        obtain ⟨hbDepth, hbIn⟩ := hb (hSrc.values_flat f.1)
        have := hc.validate _ _ _ _ (hSrc.fields_sourced f hf) hbIn hOk
        exact ⟨by omega, this.2⟩
      · cases hEq
  have := depthAttrs_le_iff.mpr fun a ha => Nat.le_sub_one_of_lt (hAttrs a ha).1
  refine ⟨show depthAttrs attrs + 1 ≤ max x.depth 1 by omega, ?_⟩
  show (sourced S.name && nodesInAttrs sourced attrs) = true
  rw [hSrc.name_eq, hn, nodesInAttrs_iff.mpr fun a ha => (hAttrs a ha).2]
  rfl

include hFamily hSourced in
theorem depthBounded_step {c : Calls} (hc : DepthBounded reg sourced c) :
    DepthBounded reg sourced (c.step reg) :=
  ⟨fun _ _ _ _ hT hw h => validateStep_depth hc hT hw h,
    fun _ _ _ _ _ hn hS hx h => initStep_depth hFamily hSourced hc hn hS hx h⟩

include hFamily hSourced in
theorem depthBounded_calls : ∀ n, DepthBounded reg sourced (calls reg n)
  | 0 => ⟨fun _ _ _ _ _ _ h => (nomatch h), fun _ _ _ _ _ _ _ _ h => (nomatch h)⟩
  | n + 1 => depthBounded_step hFamily hSourced (depthBounded_calls n)

end Family

/-! ### Every run within the measure finishes -/

/-- The measure of validating `w` against `T`: a descriptor that nests no schema, or a value
with no map and no instance, never reaches a construction, and is measured by the descriptor
alone; above it, the nesting depth counts first, then the descriptor, which stays above every
construction at the same depth. -/
def validateMeasure (bound : Nat) (T : Descriptor) (w : PyVal) : Nat :=
  if T.schemaNames = [] ∨ w.depth = 0 then T.size
  else w.depth * (3 * bound) + 2 * bound + T.size

/-- The measure of constructing `S` from `x`: the depth of the normalised source first, then
the previous-schema rank. -/
def initMeasure (rank : SchemaClass → Nat) (bound : Nat) (S : SchemaClass) (x : PyVal) : Nat :=
  max x.depth 1 * (3 * bound) + bound + rank S

/-- Validating a shallower or equally deep value against a smaller descriptor that nests no
other schema measures less. -/
theorem validateMeasure_lt {bound : Nat} {T T' : Descriptor} {w w' : PyVal}
    (hSize : T'.size < T.size) (hNames : T'.schemaNames ⊆ T.schemaNames)
    (hDepth : w'.depth ≤ w.depth) :
    validateMeasure bound T' w' < validateMeasure bound T w := by
  have := Nat.mul_le_mul_right (3 * bound) hDepth
  unfold validateMeasure
  by_cases hSmall : T'.schemaNames = [] ∨ w'.depth = 0
  · rw [if_pos hSmall]
    split_ifs <;> omega
  · have hDeep : ¬(T.schemaNames = [] ∨ w.depth = 0) := fun h =>
      hSmall (h.imp (fun (hT : T.schemaNames = []) => List.subset_nil.mp (hT ▸ hNames)) (by omega))
    rw [if_neg hSmall, if_neg hDeep]
    omega

/-- A field validated against a descriptor that nests no schema, or from a value shallower than
the source, measures less than the construction. -/
theorem validateMeasure_lt_initMeasure {rank : SchemaClass → Nat} {bound : Nat}
    {S : SchemaClass} {T : Descriptor} {a x : PyVal} (hSize : T.size < bound)
    (hDepth : T.schemaNames = [] ∨ a.depth < max x.depth 1) :
    validateMeasure bound T a < initMeasure rank bound S x := by
  unfold validateMeasure initMeasure
  split_ifs with hSmall
  · omega
  · have hLt := hDepth.resolve_left fun h => hSmall (.inl h)
    have := Nat.mul_le_mul_right (3 * bound) (Nat.succ_le_of_lt hLt)
    rw [Nat.succ_mul] at this
    omega

/-- A run that stopped for want of fuel had as much fuel as the measure at most, for a
validation against a descriptor that nests no schema or of a value whose instances are
admitted, and for a tame class's construction from such a value. -/
structure FuelNeeded (reg : Registry) (sourced : String → Bool) (rank : SchemaClass → Nat)
    (bound : Nat) (c : Calls) (n : Nat) : Prop where
  validate : ∀ T w p, (T.schemaNames = [] ∨ w.nodesIn sourced = true) →
    c.validate T w p = .error .outOfFuel → n ≤ validateMeasure bound T w
  init : ∀ S x p, Tame reg sourced rank bound S → x.nodesIn sourced = true →
    c.init S x p = .error .outOfFuel → n ≤ initMeasure rank bound S x

/-- A sub-validation that ran out of fuel, on a smaller descriptor nesting no other schema and a
value no deeper, bounds the fuel of the call that made it. -/
theorem FuelNeeded.succ_le_of_sub {reg : Registry} {sourced : String → Bool}
    {rank : SchemaClass → Nat} {bound : Nat} {c : Calls} {n : Nat}
    (hc : FuelNeeded reg sourced rank bound c n) {T T' : Descriptor} {w w' : PyVal} {p : String}
    (hw : T.schemaNames = [] ∨ w.nodesIn sourced = true)
    (hOut : c.validate T' w' p = .error .outOfFuel) (hSize : T'.size < T.size)
    (hNames : T'.schemaNames ⊆ T.schemaNames) (hDepth : w'.depth ≤ w.depth)
    (hIn : w.nodesIn sourced = true → w'.nodesIn sourced = true) :
    n + 1 ≤ validateMeasure bound T w :=
  have hw' : T'.schemaNames = [] ∨ w'.nodesIn sourced = true :=
    hw.imp (fun hT : T.schemaNames = [] => List.subset_nil.mp (hT ▸ hNames)) hIn
  Nat.succ_le_of_lt ((hc.validate _ _ _ hw' hOut).trans_lt (validateMeasure_lt hSize hNames hDepth))

section Fuel

variable {reg : Registry} {sourced : String → Bool} {rank : SchemaClass → Nat} {bound : Nat}
  (hFamily : ∀ n P, reg.schema? n = some P → Tame reg sourced rank bound P)
  (hSourced : ∀ n P, sourced n = true → reg.schema? n = some P → Sourced sourced n P)
  (hLeaf : ∀ n v p, (reg.leaf n).create v p ≠ .error .outOfFuel)

include hFamily hLeaf in
/-- One validation step that runs out of fuel was given at most the measure of its arguments. -/
theorem validateStep_fuel {c : Calls} {n : Nat} (hc : FuelNeeded reg sourced rank bound c n)
    {T : Descriptor} {w : PyVal} {p : String} (hw : T.schemaNames = [] ∨ w.nodesIn sourced = true)
    (h : validateStep reg c T w p = .error .outOfFuel) :
    n + 1 ≤ validateMeasure bound T w := by
  cases T with
  | union vs =>
      rcases unionVariants_eq_error h with ⟨v, hv, hOut⟩ | ⟨msg, hMsg⟩
      · exact hc.succ_le_of_sub hw hOut
          (by simpa only [Descriptor.size] using Descriptor.size_lt_sizes hv)
          (Descriptor.schemaNames_subset hv) le_rfl id
      · cases hMsg
  | dict K V =>
      cases w with
      | dict es =>
          simp only [validateStep, validateValue, validateDict] at h
          cases hEntries : validateEntries c K V p [] es with
          | ok d => simp [hEntries] at h
          | error e =>
              cases e <;> simp only [hEntries] at h <;> cases h
              rcases validateEntries_eq_error hEntries with ⟨kv, hkv, hOut | hOut⟩ | ⟨msg, hMsg⟩
              · exact hc.succ_le_of_sub hw hOut (by simp only [Descriptor.size]; omega)
                  (List.subset_append_left _ _) (depth_entry_le hkv).1
                  fun hIn => (nodesInEntries_iff.mp hIn kv hkv).1
              · exact hc.succ_le_of_sub hw hOut (by simp only [Descriptor.size]; omega)
                  (List.subset_append_right _ _) (depth_entry_le hkv).2
                  fun hIn => (nodesInEntries_iff.mp hIn kv hkv).2
              · cases hMsg
      | _ => simp [validateStep, validateValue, validateDict] at h
  | list E =>
      cases hIter : w.iterItems with
      | some items =>
          rw [validateStep_list_of_iter hIter] at h
          obtain ⟨x, hx, hOut⟩ := validateItems_eq_error (except_map_eq_error.mp h)
          exact hc.succ_le_of_sub hw hOut (by simp only [Descriptor.size]; omega)
            (List.Subset.refl _) (iterItems_within sourced hIter x hx).1
            (iterItems_within sourced hIter x hx).2
      | none =>
          cases w <;> simp_all [validateStep, validateValue, validateList, PyVal.iterItems,
            PyVal.iterFailure]
  | tuple ts =>
      cases hIter : w.iterItems with
      | some items =>
          rw [validateStep_tuple_of_iter hIter] at h
          obtain ⟨q, hq, hOut⟩ := validatePairs_eq_error (except_map_eq_error.mp h)
          have hItem := iterItems_within sourced hIter q.2 (List.of_mem_zip hq).2
          exact hc.succ_le_of_sub hw hOut
            (by simpa only [Descriptor.size] using Descriptor.size_lt_sizes (List.of_mem_zip hq).1)
            (Descriptor.schemaNames_subset (List.of_mem_zip hq).1) hItem.1 hItem.2
      | none =>
          cases w <;> simp_all [validateStep, validateValue, validateTuple, PyVal.iterItems,
            PyVal.iterFailure]
          split_ifs at h
          cases h
  | schema m =>
      simp only [validateStep, validateValue] at h
      split at h
      · cases h
      · split at h
        · cases h
        · split at h
          · rename_i S hS
            have hPos : 1 ≤ w.depth := by
              split at h <;> simp_all [PyVal.depth]
            have hInit : c.init S w p = .error .outOfFuel := by
              split at h <;> first | exact h | cases h
            have := hc.init _ _ _ (hFamily _ _ hS) (hw.resolve_left (List.cons_ne_nil m [])) hInit
            have := (hFamily _ _ hS).rank_lt
            have hV : validateMeasure bound (.schema m) w = w.depth * (3 * bound) + 2 * bound + 1 :=
              by simp [validateMeasure, Descriptor.size, Descriptor.schemaNames,
                Nat.one_le_iff_ne_zero.mp hPos]
            have hI : initMeasure rank bound S w = w.depth * (3 * bound) + bound + rank S := by
              simp [initMeasure, Nat.max_eq_left hPos]
            omega
          · cases h
  | leaf m =>
      simp only [validateStep, validateValue] at h
      split at h
      · cases h
      · split at h
        · cases h
        · exact absurd (except_map_eq_error.mp h) (hLeaf _ _ _)
  | _ =>
      simp only [validateStep, validateValue, validateInt, validateStr] at h
      repeat' split at h
      all_goals cases h

include hFamily hSourced in
/-- One construction step that runs out of fuel was given at most the measure of its
arguments: the previous schema's construction has a smaller rank on a source no deeper, and each
field's validation nests no schema or starts from a shallower value. -/
theorem initStep_fuel {c : Calls} {n : Nat} (hc : FuelNeeded reg sourced rank bound c n)
    (hd : DepthBounded reg sourced c) {S : SchemaClass} (hS : Tame reg sourced rank bound S)
    {x : PyVal} {p : String} (hx : x.nodesIn sourced = true)
    (h : initStep reg c S x p = .error .outOfFuel) :
    n + 1 ≤ initMeasure rank bound S x := by
  rcases initStep_eq_error h with h | ⟨effective, hPrev, h | ⟨attrs, used, h | h⟩⟩
  · unfold previousSource at h
    split at h
    · cases h
    · rename_i q hq
      split at h
      · rename_i P hP
        have := hc.init _ _ _ (hFamily _ _ hP) (nodesIn_normalizeSource hx) h
        have := hS.previous_lt q P hq hP
        have hDepth := Nat.mul_le_mul_right (3 * bound)
          (max_le (depth_normalizeSource x) (le_max_right x.depth 1))
        unfold initMeasure at *
        omega
      · cases h
  · obtain ⟨f, hf, hInternal, attrs', hOne⟩ := assignFields_eq_error h
    obtain ⟨hEffDepth, hEffIn⟩ := depth_previousSource hd hS hx hPrev
    rcases assignOne_cases hFamily hSourced hS hEffIn hInternal hOne with
      ⟨a, b, ha, hEq⟩ | ⟨e, he, hEq⟩
    · have hCond : f.2.schemaNames = [] ∨ a.depth < max x.depth 1 ∧ a.nodesIn sourced = true := by
        by_cases hNil : f.2.schemaNames = []
        · exact .inl hNil
        · have := ha (hS.defaults_flat f hf hNil)
          exact .inr ⟨by omega, this.2⟩
      have := hc.validate _ _ _ (hCond.imp id And.right) (except_map_eq_error.mp hEq.symm)
      have hLt : validateMeasure bound f.2 a < initMeasure rank bound S x :=
        validateMeasure_lt_initMeasure (hS.size_lt f hf) (hCond.imp id And.left)
      omega
    · cases hEq
      exact absurd rfl he
  · unfold checkUnused at h
    split at h
    · split_ifs at h
      cases h
    · cases h
  · exact absurd h (callValidate_finishes hS _ _)

include hFamily hSourced hLeaf in
/-- The run lemma: at every fuel, running out of it means the fuel was within the measure. -/
theorem fuelNeeded_calls : ∀ n, FuelNeeded reg sourced rank bound (calls reg n) n
  | 0 => ⟨fun _ _ _ _ _ => Nat.zero_le _, fun _ _ _ _ _ _ => Nat.zero_le _⟩
  | n + 1 =>
      ⟨fun _ _ _ hw h => validateStep_fuel hFamily hLeaf (fuelNeeded_calls n) hw h,
        fun _ _ _ hS hx h => initStep_fuel hFamily hSourced (fuelNeeded_calls n)
          (depthBounded_calls hFamily hSourced n) hS hx h⟩

end Fuel

/-- An options class whose only field is a map defaulting to `{}`. No instance of it is read as
a source, so its default may be a map. -/
def optionsSchema : SchemaClass :=
  ⟨"Options", [("h", .dict .str .int)], [("h", .value (.dict []))], none, by decide⟩

/-- The raw form of a tree, the previous schema of `Tree`: a name, optional options, and raw
children. -/
def rawTreeSchema : SchemaClass :=
  ⟨"RawTree", [("name", .str), ("options", .union [.dict .str .int, .noneType]),
    ("children", .list (.schema "RawTree"))], [("options", .value .none)], none, by decide⟩

/-- A recursive schema built on `RawTree`: a named tree with optional `Options`, whose children
are trees. -/
def treeSchema : SchemaClass :=
  ⟨"Tree", [("name", .str), ("options", .union [.schema "Options", .noneType]),
    ("children", .list (.schema "Tree"))], [], some "RawTree", by decide⟩

/-- The registry declaring `Options`, `RawTree` and `Tree`. -/
def treeRegistry : Registry :=
  { Registry.empty with schema? := fun n =>
      if n = "Options" then some optionsSchema else if n = "RawTree" then some rawTreeSchema
      else if n = "Tree" then some treeSchema else none }

/-- Only `RawTree`'s instances are read as sources. -/
def treeSourced (n : String) : Bool := n == "RawTree"

/-- `Tree` ranks above its previous schema. -/
def treeRank (S : SchemaClass) : Nat := if S.name = "Tree" then 1 else 0

theorem optionsSchema_tame : Tame treeRegistry treeSourced treeRank 6 optionsSchema where
  rank_lt := by decide
  size_lt := by decide
  previous_lt _ _ h := by cases h
  previous_sourced _ h := by cases h
  defaults_flat f hf hNames := by
    simp only [optionsSchema, List.mem_singleton] at hf
    subst hf
    exact absurd rfl hNames
  methods_flat _ _ _ h := by simp [optionsSchema] at h
  methods_finish _ _ _ h := by simp [optionsSchema] at h

/-- `RawTree`'s only class-level value is `None`. -/
theorem rawTreeSchema_values_flat :
    ∀ name v, (name, Attr.value v) ∈ rawTreeSchema.attrs → v.depth = 0 := by
  intro _ _ hv
  simp only [rawTreeSchema, List.mem_singleton, Prod.mk.injEq, Attr.value.injEq] at hv
  rw [hv.2]
  rfl

theorem rawTreeSchema_tame : Tame treeRegistry treeSourced treeRank 6 rawTreeSchema where
  rank_lt := by decide
  size_lt := by decide
  previous_lt _ _ h := by cases h
  previous_sourced _ h := by cases h
  defaults_flat f _ _ v hv := rawTreeSchema_values_flat f.1 v hv
  methods_flat _ _ _ h := by simp [rawTreeSchema] at h
  methods_finish _ _ _ h := by simp [rawTreeSchema] at h

theorem treeSchema_tame : Tame treeRegistry treeSourced treeRank 6 treeSchema where
  rank_lt := by decide
  size_lt := by decide
  previous_lt _ _ hp hP := by
    cases hp
    cases hP
    decide
  previous_sourced _ hp := by
    cases hp
    rfl
  defaults_flat _ _ _ _ h := by cases h
  methods_flat _ _ _ h := by cases h
  methods_finish _ _ _ h := by cases h

theorem treeRegistry_tame :
    ∀ n P, treeRegistry.schema? n = some P → Tame treeRegistry treeSourced treeRank 6 P := by
  intro n P h
  simp only [treeRegistry] at h
  split_ifs at h <;> cases h
  · exact optionsSchema_tame
  · exact rawTreeSchema_tame
  · exact treeSchema_tame

theorem treeRegistry_sourced : ∀ n P, treeSourced n = true → treeRegistry.schema? n = some P →
    Sourced treeSourced n P := by
  intro n P hn hP
  obtain rfl : n = "RawTree" := by simpa [treeSourced] using hn
  cases hP
  exact ⟨rfl, rawTreeSchema_values_flat, by decide⟩

/-- The conditions a termination argument by the size of the source tree would ask of classes,
checked class by class: no field has a transformation function, and no field with a class-level
default nests a schema. -/
def meetsTreeSizeConditions (classes : List SchemaClass) : Bool :=
  classes.all fun S => S.annotations.all fun f =>
    (S.classAttr ("_" ++ f.1)).isNone && ((S.classAttr f.1).isNone || f.2.schemaNames.isEmpty)

/-- A base schema with a mapping as the class-level default of its only field. -/
def defaultBase : SchemaClass :=
  ⟨"DefaultBase", [("h", .dict .str .int)], [("h", .value (.dict []))], none, by decide⟩

/-- A schema built on `DefaultBase` whose only field nests itself. -/
def looping : SchemaClass :=
  ⟨"Looping", [("h", .schema "Looping")], [], some "DefaultBase", by decide⟩

/-- The registry declaring both. -/
def loopRegistry : Registry :=
  { Registry.empty with schema? := fun n =>
      if n = "DefaultBase" then some defaultBase else if n = "Looping" then some looping
      else none }

/-- Once the base has been built, `Looping({})` is as far as the nested `Looping({})` its field
`h` validates. -/
theorem looping_initStep {c : Calls} {p : String}
    (hBase : c.init defaultBase (.dict []) p =
      .ok (.node "DefaultBase" [("h", .dict [])] (.dict [])))
    (hNested : c.validate (.schema "Looping") (.dict []) (p ++ "/" ++ "h") = .error .outOfFuel) :
    initStep loopRegistry c looping (.dict []) p = .error .outOfFuel := by
  have hBranch : fieldBranch loopRegistry looping [] (.dict [])
      (.node "DefaultBase" [("h", .dict [])] (.dict [])) "h" (.schema "Looping") =
      .direct (.dict []) := rfl
  have hOne : assignOne loopRegistry c looping [] (.dict [])
      (.node "DefaultBase" [("h", .dict [])] (.dict [])) p "h" (.schema "Looping") =
      .error .outOfFuel := by
    rw [assignOne, hBranch]
    simp [hNested]
  have hFields : assignFields loopRegistry c looping (.dict [])
      (.node "DefaultBase" [("h", .dict [])] (.dict [])) p looping.annotations [] [] =
      .error .outOfFuel := by
    rw [show looping.annotations = [("h", .schema "Looping")] from rfl, assignFields,
      if_neg (by decide), hOne]
  have hPrev : previousSource loopRegistry c looping (.dict []) p =
      .ok (.node "DefaultBase" [("h", .dict [])] (.dict [])) := hBase
  simp only [initStep, normalizeSource, hPrev, bind, Except.bind, hFields]

/-- `Looping({})` runs out of every amount of fuel. -/
theorem looping_runs_out : ∀ fuel p,
    schemaNode loopRegistry fuel looping (.dict []) p = .error .outOfFuel
  | 0, _ => rfl
  | 1, _ => rfl
  | 2, _ => rfl
  | k + 3, p => looping_initStep rfl (looping_runs_out (k + 1) (p ++ "/" ++ "h"))

/-- A class whose only field, a map of maps that nests no schema, defaults to `{"a": {}}`. -/
def deepDefault : SchemaClass :=
  ⟨"DeepDefault", [("h", .dict .str (.dict .str .int))],
    [("h", .value (.dict [(.str "a", .dict [])]))], none, by decide⟩

/-- A class whose only field holds a `DeepDefault`. -/
def holder : SchemaClass := ⟨"Holder", [("a", .schema "DeepDefault")], [], none, by decide⟩

/-- A class whose only field builds a `Rebuilt`. -/
def reader : SchemaClass := ⟨"Reader", [("h", .schema "Rebuilt")], [], none, by decide⟩

/-- A schema built on `Holder` whose only field is a `Reader`. -/
def rebuilt : SchemaClass := ⟨"Rebuilt", [("a", .schema "Reader")], [], some "Holder", by decide⟩

/-- The registry declaring the four. -/
def nestedRegistry : Registry :=
  { Registry.empty with schema? := fun n =>
      if n = "DeepDefault" then some deepDefault else if n = "Holder" then some holder
      else if n = "Reader" then some reader else if n = "Rebuilt" then some rebuilt else none }

/-- The source `{"a": {}}`, which is also `DeepDefault`'s default. -/
def nestedSource : PyVal := .dict [(.str "a", .dict [])]

/-- `DeepDefault({})`: its field holds the default. -/
def deepNode : PyVal := .node "DeepDefault" [("h", nestedSource)] (.dict [])

/-- A `Reader` built from `deepNode` builds `Rebuilt({"a": {}})` for its field `h`. -/
theorem reader_runs_out {c : Calls} {q : String}
    (h : c.init rebuilt nestedSource (q ++ "/" ++ "h") = .error .outOfFuel) :
    validateStep nestedRegistry ((c.step nestedRegistry).step nestedRegistry) (.schema "Reader")
      deepNode q = .error .outOfFuel := by
  have hInit : initStep nestedRegistry (c.step nestedRegistry) reader deepNode q =
      .error .outOfFuel := by
    have hOne : assignOne nestedRegistry (c.step nestedRegistry) reader [] deepNode deepNode q
        "h" (.schema "Rebuilt") = .error .outOfFuel := by
      rw [assignOne, show fieldBranch nestedRegistry reader [] deepNode deepNode "h"
        (.schema "Rebuilt") = .direct nestedSource from rfl]
      show (fun v => (v, true)) <$> validateStep nestedRegistry c (.schema "Rebuilt")
        nestedSource (q ++ "/" ++ "h") = _
      unfold nestedSource at h
      simp [validateStep, validateValue, nestedRegistry, nestedSource, isObjType,
        PyVal.typeName, h]
    simp only [initStep, show normalizeSource deepNode = deepNode from rfl, previousSource,
      show reader.previous = none from rfl, bind, Except.bind,
      show reader.annotations = [("h", .schema "Rebuilt")] from rfl, assignFields,
      if_neg (show ¬isInternalFieldName "h" = true by decide), hOne]
  simp only [validateStep, validateValue, deepNode, isObjType, PyVal.typeName,
    show nestedRegistry.schema? "Reader" = some reader from rfl]
  exact hInit

/-- Once `Holder({"a": {}})` has been built, `Rebuilt({"a": {}})` is as far as the `Reader` its
field `a` builds from the `DeepDefault` instance nested in it. -/
theorem rebuilt_initStep {c : Calls} {p : String}
    (hHolder : c.init holder nestedSource p = .ok (.node "Holder" [("a", deepNode)] nestedSource))
    (hNested : c.validate (.schema "Reader") deepNode (p ++ "/" ++ "a") = .error .outOfFuel) :
    initStep nestedRegistry c rebuilt nestedSource p = .error .outOfFuel := by
  have hOne : assignOne nestedRegistry c rebuilt [] nestedSource
      (.node "Holder" [("a", deepNode)] nestedSource) p "a" (.schema "Reader") =
      .error .outOfFuel := by
    rw [assignOne, show fieldBranch nestedRegistry rebuilt [] nestedSource
      (.node "Holder" [("a", deepNode)] nestedSource) "a" (.schema "Reader") = .direct deepNode
      from rfl]
    simp [hNested]
  have hPrev : previousSource nestedRegistry c rebuilt nestedSource p =
      .ok (.node "Holder" [("a", deepNode)] nestedSource) := hHolder
  simp only [initStep, show normalizeSource nestedSource = nestedSource from rfl, hPrev, bind,
    Except.bind,
    show rebuilt.annotations = [("a", .schema "Reader")] from rfl, assignFields,
    if_neg (show ¬isInternalFieldName "a" = true by decide), hOne]

/-- `Rebuilt({"a": {}})` runs out of every amount of fuel. -/
theorem rebuilt_runs_out : ∀ fuel p,
    schemaNode nestedRegistry fuel rebuilt nestedSource p = .error .outOfFuel
  | 0, _ => rfl
  | 1, _ => rfl
  | 2, _ => rfl
  | 3, _ => rfl
  | 4, _ => rfl
  | 5, _ => rfl
  | k + 6, _ => rebuilt_initStep rfl (reader_runs_out (rebuilt_runs_out (k + 2) _))

end KnotSchema
