import KnotSchema.Spec.Completeness
import KnotSchema.Spec.FieldTags
import KnotSchema.Schema.Fuel

/-! Valid documents build. A parsed document that gives every field of every schema it reaches
a value the field's type accepts, or leaves it to a default the type accepts, and has no other
key, builds the instance: through nested schemas, lists, maps and unions whose variants are in
a safe order, and through transformation functions whose results the fields' types accept.
The classes have no previous schema, and a `_validate` that passes. -/
namespace KnotSchema

/-- What construction asks of a schema class whatever the document: no previous schema, field
names `SchemaNode` does not claim, transformation functions of one or two parameters and with
no default beside them, field types in a safe order, and a `_validate` that passes. -/
structure ClassReady (S : SchemaClass) : Prop where
  previous : S.previous = none
  reserved : ∀ f ∈ S.fields, isReservedFieldName f.1 = false
  transforms : ∀ f ∈ S.fields, ∀ a, S.attrs.lookup ("_" ++ f.1) = some a →
    S.attrs.lookup f.1 = none ∧ ∃ k body, a = .method k body ∧ (k = 1 ∨ k = 2)
  ordered : ∀ f ∈ S.fields, Ordered f.2
  validates : ∀ inst p, callValidate S inst p = .ok ()

/-- A property of each field a class lists, in order, is one of all its fields. -/
theorem SchemaClass.forall_fields {S : SchemaClass} {fs : List (String × Descriptor)}
    (hFields : S.fields = fs) {P : String × Descriptor → Prop} (h : fs.Forall P) :
    ∀ f ∈ S.fields, P f :=
  hFields ▸ List.forall_iff_forall_mem.mp h

/-- The parsed nodes a descriptor accepts, nested schemas included. A map built into a schema
has only the schema's own field names as keys; a field with a transformation function gets a
value from it, on the map, that its type accepts; any other field present gets a node its type
accepts; an absent one has a class-level default its type accepts, or an optional type. The
class is not named `dict`, the one name the model's `type(obj) == cls` would confuse with a
map. -/
inductive Accepts (reg : Registry) : Descriptor → PyVal → Prop
  | noneType : Accepts reg .noneType .none
  | int (i : Int) : Accepts reg .int (.int i)
  | strOfStr (s : String) : Accepts reg .str (.str s)
  | strOfInt (i : Int) : Accepts reg .str (.int i)
  | bool (b : Bool) : Accepts reg .bool (.bool b)
  | literal (c : Scalar) : Accepts reg (.literal c) c.toVal
  | union {vs : List Descriptor} {T : Descriptor} {n : PyVal} :
      T ∈ vs → Accepts reg T n → IsTree n → Accepts reg (.union vs) n
  | list {E : Descriptor} {items : List PyVal} :
      (∀ x ∈ items, Accepts reg E x) → Accepts reg (.list E) (.list items)
  | tuple {ts : List Descriptor} {items : List PyVal} : ts.length = items.length →
      (∀ p ∈ ts.zip items, Accepts reg p.1 p.2) → Accepts reg (.tuple ts) (.list items)
  | dict {K V : Descriptor} {es : List (PyVal × PyVal)} : IsTree (.dict es) →
      (∀ e ∈ es, Accepts reg K e.1) → (∀ e ∈ es, Accepts reg V e.2) →
      Accepts reg (.dict K V) (.dict es)
  | schema {n : String} {S : SchemaClass} {es : List (PyVal × PyVal)} :
      reg.schema? n = some S → n ≠ "dict" → ClassReady S → IsTree (.dict es) →
      KeysDeclared S es →
      (∀ f ∈ S.fields, ∀ k body, S.attrs.lookup ("_" ++ f.1) = some (.method k body) →
        ∃ v, body (.dict es) = .ok v) →
      (∀ f ∈ S.fields, ∀ k body v, S.attrs.lookup ("_" ++ f.1) = some (.method k body) →
        body (.dict es) = .ok v → Accepts reg f.2 v) →
      (∀ f ∈ S.fields, S.attrs.lookup ("_" ++ f.1) = none → ∀ v,
        sourceGet reg (.dict es) f.1 = some v → Accepts reg f.2 v) →
      (∀ f ∈ S.fields, S.attrs.lookup ("_" ++ f.1) = none → sourceGet reg (.dict es) f.1 = none →
        ∀ a, S.attrs.lookup f.1 = some a → Accepts reg f.2 (a.toValue (S.name ++ "." ++ f.1))) →
      (∀ f ∈ S.fields, S.attrs.lookup ("_" ++ f.1) = none → sourceGet reg (.dict es) f.1 = none →
        S.attrs.lookup f.1 = none → f.2.isOptional) →
      Accepts reg (.schema n) (.dict es)

/-- Finitely many monotone facts about fuel hold together from some fuel on. -/
theorem exists_fuel_forall {α : Type} {P : α → Nat → Prop}
    (hMono : ∀ a N M, N ≤ M → P a N → P a M) :
    ∀ {l : List α}, (∀ a ∈ l, ∃ N, P a N) → ∃ N, ∀ a ∈ l, P a N
  | [], _ => ⟨0, nofun⟩
  | a :: l, h => by
      obtain ⟨N₁, h₁⟩ := h a (List.mem_cons_self a l)
      obtain ⟨N₂, h₂⟩ := exists_fuel_forall hMono fun b hb => h b (List.mem_cons_of_mem a hb)
      refine ⟨max N₁ N₂, fun b hb => ?_⟩
      rcases List.mem_cons.mp hb with rfl | hb
      · exact hMono _ _ _ (le_max_left _ _) h₁
      · exact hMono _ _ _ (le_max_right _ _) (h₂ b hb)

/-- Validation at fuel `N` returns a value, scalar for a scalar node. -/
def AcceptedAt (reg : Registry) (T : Descriptor) (n : PyVal) (p : String) (N : Nat) : Prop :=
  ∃ r, validatedObjectType reg N T n p = .ok r ∧ (n.isScalar → r.isScalar)

theorem AcceptedAt.mono {reg : Registry} {T : Descriptor} {n : PyVal} {p : String} {N M : Nat}
    (hNM : N ≤ M) (h : AcceptedAt reg T n p N) : AcceptedAt reg T n p M := by
  obtain ⟨r, hr, hScalar⟩ := h
  exact ⟨r, (validatedObjectType_fuel_mono hNM (by simp [hr])).trans hr, hScalar⟩

section Fields

variable {reg : Registry} {c : Calls} {cls : SchemaClass} {selfSource source : PyVal}
  {path : String}

/-- The field loop returns when each non-internal field's iteration does, on an instance that
holds neither its name nor its underscored name; a field whose iteration reports the name used
ends up in `used_keys`. -/
theorem assignFields_ok (Q : String → Prop) :
    ∀ {fs : List (String × Descriptor)}, (fs.map Prod.fst).Nodup →
      (∀ f ∈ fs, isInternalFieldName f.1 = false → ∀ attrs : List (String × PyVal),
        attrs.lookup f.1 = none → attrs.lookup ("_" ++ f.1) = none →
        ∃ v u, assignOne reg c cls attrs selfSource source path f.1 f.2 = .ok (v, u) ∧
          (Q f.1 → u = true)) →
      ∀ attrs used, (∀ a ∈ attrs, a.1 ∉ fs.map Prod.fst ∧ isInternalFieldName a.1 = false) →
      ∃ attrs' used', assignFields reg c cls selfSource source path fs attrs used =
          .ok (attrs', used') ∧ (∀ u ∈ used, u ∈ used') ∧
        ∀ f ∈ fs, isInternalFieldName f.1 = false → Q f.1 → f.1 ∈ used'
  | [], _, _, attrs, used, _ => ⟨attrs, used, rfl, fun _ h => h, nofun⟩
  | (name, T) :: rest, hNodup, hOne, attrs, used, hAttrs => by
      obtain ⟨hFresh, hRest⟩ := List.nodup_cons.mp hNodup
      have hRestAttrs : ∀ a ∈ attrs, a.1 ∉ rest.map Prod.fst ∧ isInternalFieldName a.1 = false :=
        fun a ha => ⟨fun h => (hAttrs a ha).1 (List.mem_cons_of_mem _ h), (hAttrs a ha).2⟩
      simp only [assignFields]
      by_cases hInt : isInternalFieldName name = true
      · rw [if_pos hInt]
        obtain ⟨attrs', used', h, hUsed, hQ⟩ := assignFields_ok Q hRest
          (fun f hf => hOne f (List.mem_cons_of_mem _ hf)) attrs used hRestAttrs
        refine ⟨attrs', used', h, hUsed, fun f hf hf' hQf => ?_⟩
        rcases List.mem_cons.mp hf with rfl | hf
        · exact absurd (hf'.symm.trans hInt) Bool.false_ne_true
        · exact hQ f hf hf' hQf
      · rw [if_neg hInt]
        have hName : attrs.lookup name = none := List.lookup_eq_none_iff.mpr fun a ha =>
          bne_iff_ne.mpr fun hEq => (hAttrs a ha).1 (hEq ▸ List.mem_cons_self _ _)
        have hUnder : attrs.lookup ("_" ++ name) = none := List.lookup_eq_none_iff.mpr fun a ha =>
          bne_iff_ne.mpr fun hEq => by
            have := (hAttrs a ha).2
            simp [← hEq, isInternalFieldName_underscore] at this
        obtain ⟨v, u, hAssign, hU⟩ :=
          hOne (name, T) (List.mem_cons_self _ _) (by simpa using hInt) attrs hName hUnder
        rw [hAssign]
        obtain ⟨attrs', used', h, hUsed, hQ⟩ := assignFields_ok Q hRest
          (fun f hf => hOne f (List.mem_cons_of_mem _ hf)) (attrs ++ [(name, v)])
          (if u then used ++ [name] else used) (fun a ha => by
            rcases List.mem_append.mp ha with ha | ha
            · exact hRestAttrs a ha
            · obtain rfl : a = (name, v) := by simpa using ha
              exact ⟨hFresh, by simpa using hInt⟩)
        have hGrow : ∀ w ∈ used, w ∈ (if u then used ++ [name] else used) := fun w hw => by
          split <;> simp [hw]
        refine ⟨attrs', used', h, fun w hw => hUsed w (hGrow w hw), fun f hf hf' hQf => ?_⟩
        rcases List.mem_cons.mp hf with rfl | hf
        · exact hUsed _ (by simp [hU hQf])
        · exact hQ f hf hf' hQf

end Fields

/-- An optional type takes `None`. -/
theorem conforms_none_of_isOptional {T : Descriptor} (h : T.isOptional) : Conforms T .none := by
  unfold Descriptor.isOptional at h
  split at h
  · exact .union (List.mem_cons_self _ _) .noneType
  · exact .union (List.mem_cons_of_mem _ (List.mem_cons_self _ _)) .noneType
  · cases h

/-- A map key naming a field makes the field present. -/
theorem sourceGet_isSome_of_key {reg : Registry} {es : List (PyVal × PyVal)} {name : String}
    (h : PyVal.str name ∈ es.map Prod.fst) : (sourceGet reg (.dict es) name).isSome := by
  obtain ⟨e, he, hKey⟩ := List.mem_map.mp h
  simp only [sourceGet, Option.isSome_map']
  exact List.find?_isSome.mpr ⟨e, he, by simp [hKey, PyVal.pyEq]⟩

/-- A schema descriptor on a map constructs the class. -/
theorem validateStep_schema_dict {reg : Registry} {c : Calls} {n : String} {S : SchemaClass}
    {es : List (PyVal × PyVal)} {p : String} (hS : reg.schema? n = some S) (hName : n ≠ "dict") :
    validateStep reg c (.schema n) (.dict es) p = c.init S (.dict es) p := by
  have hType : isObjType (.dict es) n = false := by
    simpa [isObjType, PyVal.typeName] using Ne.symm hName
  simp [validateStep, validateValue, hType, hS]

/-- For a name `SchemaNode` does not claim, `getattr(cls, "_name")` is the author's `_name`. -/
theorem classAttr_underscore {cls : SchemaClass} {name : String}
    (hReserved : isReservedFieldName name = false) :
    cls.classAttr ("_" ++ name) = cls.attrs.lookup ("_" ++ name) := by
  have hPrevious : "_" ++ name ≠ "_PREVIOUS_SCHEMA" := fun h => by
    have := underscore_append_inj (h.trans (rfl : "_PREVIOUS_SCHEMA" = "_" ++ "PREVIOUS_SCHEMA"))
    simp_all [isReservedFieldName]
  have hMethod : schemaNodeMethod ("_" ++ name) = none := by simp_all [isReservedFieldName]
  simp only [SchemaClass.classAttr, hPrevious, if_false]
  cases cls.attrs.lookup ("_" ++ name) <;> simp [hMethod]

section Construction

variable {reg : Registry} {c : Calls} {S : SchemaClass} {es : List (PyVal × PyVal)}
  {p : String}

/-- What a field needs of the validation calls: its transformation function's value on the map
validates; or else its value from the map does, or else its class-level default does, or else
the field is optional and `None` validates. -/
structure FieldAccepted (reg : Registry) (c : Calls) (S : SchemaClass)
    (es : List (PyVal × PyVal)) (p name : String) (T : Descriptor) : Prop where
  transform : ∀ k body, S.attrs.lookup ("_" ++ name) = some (.method k body) →
    ∃ v r, body (.dict es) = .ok v ∧ c.validate T v (p ++ "/" ++ name) = .ok r
  present : S.attrs.lookup ("_" ++ name) = none → ∀ v, sourceGet reg (.dict es) name = some v →
    ∃ r, c.validate T v (p ++ "/" ++ name) = .ok r
  default : S.attrs.lookup ("_" ++ name) = none → sourceGet reg (.dict es) name = none →
    ∀ a, S.attrs.lookup name = some a →
      ∃ r, c.validate T (a.toValue (S.name ++ "." ++ name)) (p ++ "/" ++ name) = .ok r
  optional : S.attrs.lookup ("_" ++ name) = none → sourceGet reg (.dict es) name = none →
    S.attrs.lookup name = none → T.isOptional ∧ ∃ r, c.validate T .none (p ++ "/" ++ name) = .ok r

/-- One iteration of the field loop returns for an accepted field, and reports the name used
when the map has it. -/
theorem assignOne_accepted (hReady : ClassReady S) {name : String} {T : Descriptor}
    (hf : (name, T) ∈ S.fields) (hField : FieldAccepted reg c S es p name T)
    {attrs : List (String × PyVal)} (hName : attrs.lookup name = none)
    (hUnder : attrs.lookup ("_" ++ name) = none) :
    ∃ v u, assignOne reg c S attrs (.dict es) (.dict es) p name T = .ok (v, u) ∧
      ((sourceGet reg (.dict es) name).isSome → u = true) := by
  have hInt : isInternalFieldName name = false := by
    simpa using (List.mem_filter.mp hf).2
  have hReserved := hReady.reserved _ hf
  unfold assignOne
  cases hTr : S.attrs.lookup ("_" ++ name) with
  | some a =>
      obtain ⟨hNoDefault, k, body, rfl, hk⟩ := hReady.transforms _ hf a hTr
      obtain ⟨v, r, hv, hr⟩ := hField.transform k body hTr
      rw [fieldBranch_eq_declared (by simp) hReserved hInt hName hUnder (by simp [hNoDefault])]
      refine ⟨r, true, ?_, fun _ => rfl⟩
      simp [declaredTag, hTr, declaredBranch, getConvertedValue, classAttr_underscore hReserved,
        hk, hv, hr, bind, Except.bind, pure, Except.pure]
  | none =>
      rw [fieldBranch_eq_declared (by simp) hReserved hInt hName hUnder (by simp [hTr])]
      simp only [declaredTag, hTr, Option.isSome_none, Bool.false_eq_true, if_false]
      cases hSrc : sourceGet reg (.dict es) name with
      | some v =>
          obtain ⟨r, hr⟩ := hField.present hTr v hSrc
          refine ⟨r, true, ?_, fun _ => rfl⟩
          cases S.attrs.lookup name <;> (try cases T.isOptional) <;> simp [declaredBranch, hr]
      | none =>
          cases hD : S.attrs.lookup name with
          | some a =>
              obtain ⟨r, hr⟩ := hField.default hTr hSrc a hD
              refine ⟨r, false, ?_, nofun⟩
              simp [declaredBranch, assignDefault, classAttr_plain hReserved hInt, hD, hr]
          | none =>
              obtain ⟨hOpt, r, hr⟩ := hField.optional hTr hSrc hD
              refine ⟨r, false, ?_, nofun⟩
              simp [hOpt, declaredBranch, assignDefault, classAttr_plain hReserved hInt, hD, hr]

/-- A class without a previous schema builds from a map whose keys all name its fields, once
every field is accepted. -/
theorem initStep_accepted (hReady : ClassReady S) (hKeys : KeysDeclared S es)
    (hFields : ∀ f ∈ S.fields, FieldAccepted reg c S es p f.1 f.2) :
    ∃ attrs, initStep reg c S (.dict es) p = .ok (.node S.name attrs (.dict es)) := by
  obtain ⟨attrs, used, hAssign, -, hUsed⟩ :=
    assignFields_ok (fun name => (sourceGet reg (.dict es) name).isSome) S.annotations_nodup
      (fun f hf hInt _ hName hUnder =>
        have hMem : f ∈ S.fields := List.mem_filter.mpr ⟨hf, by simp [hInt]⟩
        assignOne_accepted hReady hMem (hFields f hMem) hName hUnder)
      [] [] nofun
  have hCheck : checkUnused (.dict es) used p = .ok () := by
    have hNone : unusedKeys es used = [] := List.filter_eq_nil_iff.mpr fun k hk => by
      obtain ⟨f, hf, rfl⟩ := hKeys k hk
      obtain ⟨hAnn, hInt⟩ := List.mem_filter.mp hf
      have hIn := hUsed f hAnn (by simpa using hInt) (sourceGet_isSome_of_key hk)
      simp only [Bool.not_eq_true', Bool.not_eq_false, List.any_eq_true]
      exact ⟨f.1, hIn, (pyEq_str_iff _ _).mpr rfl⟩
    simp [checkUnused, hNone]
  refine ⟨attrs, ?_⟩
  simp only [initStep, normalizeSource, previousSource, hReady.previous, hAssign, hCheck,
    hReady.validates, bind, Except.bind, pure, Except.pure]

end Construction

/-- A field of `S` on the map `es` whose transformation function's value, or else whose value
from the map, or else whose default, is accepted at fuel `N`, and whose type fits in it. -/
structure FieldAcceptedAt (reg : Registry) (S : SchemaClass) (es : List (PyVal × PyVal))
    (p : String) (f : String × Descriptor) (N : Nat) : Prop where
  transform : ∀ k body v, S.attrs.lookup ("_" ++ f.1) = some (.method k body) →
    body (.dict es) = .ok v → AcceptedAt reg f.2 v (p ++ "/" ++ f.1) N
  present : S.attrs.lookup ("_" ++ f.1) = none → ∀ v, sourceGet reg (.dict es) f.1 = some v →
    AcceptedAt reg f.2 v (p ++ "/" ++ f.1) N
  default : S.attrs.lookup ("_" ++ f.1) = none → sourceGet reg (.dict es) f.1 = none →
    ∀ a, S.attrs.lookup f.1 = some a →
      AcceptedAt reg f.2 (a.toValue (S.name ++ "." ++ f.1)) (p ++ "/" ++ f.1) N
  size : f.2.size ≤ N

theorem FieldAcceptedAt.mono {reg : Registry} {S : SchemaClass} {es : List (PyVal × PyVal)}
    {p : String} {f : String × Descriptor} {N M : Nat} (hNM : N ≤ M)
    (h : FieldAcceptedAt reg S es p f N) : FieldAcceptedAt reg S es p f M :=
  ⟨fun k body v hTr hv => (h.transform k body v hTr hv).mono hNM,
    fun hTr v hv => (h.present hTr v hv).mono hNM,
    fun hTr hs a ha => (h.default hTr hs a ha).mono hNM, h.size.trans hNM⟩

/-- A field of a ready class is accepted at some fuel when the one value the field loop will
validate, its transformation function's, or else the map's, or else the default, is. -/
theorem exists_fieldAcceptedAt {reg : Registry} {S : SchemaClass} {es : List (PyVal × PyVal)}
    {p : String} {f : String × Descriptor} (hReady : ClassReady S) (hf : f ∈ S.fields)
    (hBodies : ∀ k body, S.attrs.lookup ("_" ++ f.1) = some (.method k body) →
      ∃ v, body (.dict es) = .ok v)
    (hTransform : ∀ k body v, S.attrs.lookup ("_" ++ f.1) = some (.method k body) →
      body (.dict es) = .ok v → ∃ N, AcceptedAt reg f.2 v (p ++ "/" ++ f.1) N)
    (hPresent : S.attrs.lookup ("_" ++ f.1) = none → ∀ v, sourceGet reg (.dict es) f.1 = some v →
      ∃ N, AcceptedAt reg f.2 v (p ++ "/" ++ f.1) N)
    (hDefault : S.attrs.lookup ("_" ++ f.1) = none → sourceGet reg (.dict es) f.1 = none →
      ∀ a, S.attrs.lookup f.1 = some a →
        ∃ N, AcceptedAt reg f.2 (a.toValue (S.name ++ "." ++ f.1)) (p ++ "/" ++ f.1) N) :
    ∃ N, FieldAcceptedAt reg S es p f N := by
  cases hTr : S.attrs.lookup ("_" ++ f.1) with
  | some a =>
      obtain ⟨-, k, body, rfl, -⟩ := hReady.transforms f hf a hTr
      obtain ⟨v, hv⟩ := hBodies k body hTr
      obtain ⟨N, hN⟩ := hTransform k body v hTr hv
      refine ⟨max N f.2.size, fun k' body' v' hTr' hv' => ?_,
        fun h => Option.noConfusion (hTr.symm.trans h),
        fun h => Option.noConfusion (hTr.symm.trans h), le_max_right _ _⟩
      obtain ⟨rfl, rfl⟩ : k = k' ∧ body = body' := by
        simpa using hTr.symm.trans hTr'
      obtain rfl : v = v' := Except.ok.inj (hv.symm.trans hv')
      exact hN.mono (le_max_left _ _)
  | none =>
      cases hSrc : sourceGet reg (.dict es) f.1 with
      | some v =>
          obtain ⟨N, hN⟩ := hPresent hTr v hSrc
          refine ⟨max N f.2.size, fun k body v h => absurd h (by simp [hTr]),
            fun _ v' hv' => ?_, fun _ h => Option.noConfusion (hSrc.symm.trans h),
            le_max_right _ _⟩
          obtain rfl : v = v' := Option.some.inj (hSrc.symm.trans hv')
          exact hN.mono (le_max_left _ _)
      | none =>
          cases hD : S.attrs.lookup f.1 with
          | some a =>
              obtain ⟨N, hN⟩ := hDefault hTr hSrc a hD
              refine ⟨max N f.2.size, fun k body v h => absurd h (by simp [hTr]),
                fun _ _ h => Option.noConfusion (hSrc.symm.trans h),
                fun _ _ a' ha' => ?_, le_max_right _ _⟩
              obtain rfl : a = a' := Option.some.inj (hD.symm.trans ha')
              exact hN.mono (le_max_left _ _)
          | none =>
              exact ⟨f.2.size, fun k body v h => absurd h (by simp [hTr]),
                fun _ _ h => Option.noConfusion (hSrc.symm.trans h),
                fun _ _ _ h => Option.noConfusion (hD.symm.trans h), le_rfl⟩

/-- The schema case: a map is accepted at some fuel by a nested schema whose class is ready,
whose keys name the class's fields, on which the transformation functions return, and each of
whose fields is accepted at some fuel, or is optional with no value and no default. -/
theorem schema_accepted_at {reg : Registry} {n : String} {S : SchemaClass}
    {es : List (PyVal × PyVal)} {p : String} (hS : reg.schema? n = some S) (hName : n ≠ "dict")
    (hReady : ClassReady S) (hKeys : KeysDeclared S es)
    (hBodies : ∀ f ∈ S.fields, ∀ k body, S.attrs.lookup ("_" ++ f.1) = some (.method k body) →
      ∃ v, body (.dict es) = .ok v)
    (hOptional : ∀ f ∈ S.fields, S.attrs.lookup ("_" ++ f.1) = none →
      sourceGet reg (.dict es) f.1 = none → S.attrs.lookup f.1 = none → f.2.isOptional)
    (hFields : ∀ f ∈ S.fields, ∃ N, FieldAcceptedAt reg S es p f N) :
    ∃ N, AcceptedAt reg (.schema n) (.dict es) p N := by
  obtain ⟨F, hF⟩ := @exists_fuel_forall _ (fun f N => FieldAcceptedAt reg S es p f N)
    (fun _ _ _ h hA => hA.mono h) _ hFields
  obtain ⟨attrs, h⟩ := @initStep_accepted reg (calls reg F) S es p hReady hKeys fun f hf =>
    { transform := fun k body hTr =>
        let ⟨v, hv⟩ := hBodies f hf k body hTr
        let ⟨r, hr, _⟩ := (hF f hf).transform k body v hTr hv
        ⟨v, r, hv, hr⟩
      present := fun hTr v hv => let ⟨r, hr, _⟩ := (hF f hf).present hTr v hv; ⟨r, hr⟩
      default := fun hTr hs a ha => let ⟨r, hr, _⟩ := (hF f hf).default hTr hs a ha; ⟨r, hr⟩
      optional := fun hTr hs hD =>
        ⟨hOptional f hf hTr hs hD,
          let ⟨r, hr, _⟩ := (completeUpTo_calls reg F).complete f.2 .none _ (hReady.ordered f hf)
            .none (conforms_none_of_isOptional (hOptional f hf hTr hs hD)) (hF f hf).size
          ⟨r, hr⟩⟩ }
  exact ⟨F + 2, _, (validateStep_schema_dict hS hName).trans h, nofun⟩

/-- Every accepted node is accepted at some fuel, by induction on why it is accepted. -/
theorem accepted_at {reg : Registry} {T : Descriptor} {n : PyVal} (hAcc : Accepts reg T n) :
    ∀ p, Ordered T → ∃ N, AcceptedAt reg T n p N := by
  induction hAcc with
  | noneType => exact fun p hT => ⟨1, (completeUpTo_calls reg 1).complete _ _ p hT .none .noneType le_rfl⟩
  | int i => exact fun p hT => ⟨1, (completeUpTo_calls reg 1).complete _ _ p hT (.int i) (.int i) le_rfl⟩
  | strOfStr s =>
      exact fun p hT => ⟨1, (completeUpTo_calls reg 1).complete _ _ p hT (.str s) (.strOfStr s) le_rfl⟩
  | strOfInt i =>
      exact fun p hT => ⟨1, (completeUpTo_calls reg 1).complete _ _ p hT (.int i) (.strOfInt i) le_rfl⟩
  | bool b => exact fun p hT => ⟨1, (completeUpTo_calls reg 1).complete _ _ p hT (.bool b) (.bool b) le_rfl⟩
  | literal c =>
      exact fun p hT => ⟨1, (completeUpTo_calls reg 1).complete _ _ p hT
        (IsTree.of_isScalar (by cases c <;> rfl)) (.literal c) le_rfl⟩
  | @union vs V m hV hAccV hTree ih =>
      intro p hT
      obtain ⟨N, r, hr, hScalar⟩ := ih p (hT.variant hV)
      refine ⟨max N (Descriptor.union vs).size + 1, ?_⟩
      have hSub : ∀ u ∈ vs, u.size ≤ max N (Descriptor.union vs).size := fun u hu => by
        have := Descriptor.size_lt_sizes hu
        simp only [Descriptor.size] at this ⊢
        omega
      have hr' : validatedObjectType reg (max N (Descriptor.union vs).size) V m p = .ok r :=
        (validatedObjectType_fuel_mono (le_max_left _ _) (by simp [hr])).trans hr
      exact @unionVariants_of_ordered reg _ _ (completeUpTo_calls reg _) vs V m r p hT hSub hV hTree
        (by rintro rfl; cases hAccV; rfl) hr' hScalar
  | @list E items _ ih =>
      intro p hT
      cases hT with
      | list hE =>
          obtain ⟨F, hF⟩ := @exists_fuel_forall _ (fun x N => AcceptedAt reg E x (p ++ "[]") N)
            (fun x _ _ h (hA : AcceptedAt reg E x _ _) => hA.mono h) items
            fun x hx => ih x hx (p ++ "[]") hE
          obtain ⟨rs, h⟩ := @validateStep_list_ok reg (calls reg F) E items p fun x hx =>
            let ⟨r, hr, _⟩ := hF x hx
            ⟨r, hr⟩
          exact ⟨F + 1, _, h, nofun⟩
  | @tuple ts items _ _ ih =>
      intro p hT
      cases hT with
      | tuple hts =>
          obtain ⟨F, hF⟩ := @exists_fuel_forall _ (fun q N => AcceptedAt reg q.1 q.2 p N)
            (fun q _ _ h (hA : AcceptedAt reg q.1 q.2 p _) => hA.mono h) (ts.zip items)
            fun q hq => ih q hq p (hts _ (List.of_mem_zip hq).1)
          obtain ⟨rs, h⟩ := @validateStep_tuple_ok reg (calls reg F) ts items p fun q hq =>
            let ⟨r, hr, _⟩ := hF q hq
            ⟨r, hr⟩
          exact ⟨F + 1, _, h, nofun⟩
  | @dict K V es hTree _ _ ihK ihV =>
      intro p hT
      cases hT with
      | dict hK hV =>
          cases hTree with
          | dict hKeys _ _ =>
              obtain ⟨F, hF⟩ := @exists_fuel_forall _
                (fun kv N => AcceptedAt reg K kv.1 (p ++ " @ key " ++ kv.1.toStr) N ∧
                  AcceptedAt reg V kv.2 (p ++ " @ value for key " ++ kv.1.toStr) N)
                (fun kv _ _ h (hA : AcceptedAt reg K kv.1 _ _ ∧ AcceptedAt reg V kv.2 _ _) =>
                  ⟨hA.1.mono h, hA.2.mono h⟩) es fun kv hkv => by
                  obtain ⟨N₁, h₁⟩ := ihK kv hkv _ hK
                  obtain ⟨N₂, h₂⟩ := ihV kv hkv _ hV
                  exact ⟨max N₁ N₂, h₁.mono (le_max_left _ _), h₂.mono (le_max_right _ _)⟩
              obtain ⟨d, h⟩ := @validateStep_dict_ok reg (calls reg F) K V es p fun kv hkv => by
                obtain ⟨⟨k', hk', hScalar⟩, ⟨v', hv', -⟩⟩ := hF kv hkv
                exact ⟨(k', v'), hk', hv', PyVal.hashable_of_isScalar (hScalar (hKeys kv hkv))⟩
              exact ⟨F + 1, _, h, nofun⟩
  | @schema n S es hS hName hReady _ hKeys hBodies _ _ _ hOptional ihTransform ihPresent
      ihDefault =>
      exact fun p _ => schema_accepted_at hS hName hReady hKeys hBodies hOptional fun f hf =>
        exists_fieldAcceptedAt hReady hf (hBodies f hf)
          (fun k body v hTr hv => ihTransform f hf k body v hTr hv _ (hReady.ordered f hf))
          (fun hTr v hv => ihPresent f hf hTr v hv _ (hReady.ordered f hf))
          (fun hTr hs a ha => ihDefault f hf hTr hs a ha _ (hReady.ordered f hf))

/-- Valid documents build: a parsed node that a descriptor in a safe order accepts, nested
schemas included, is validated to a value, the same one at every recursion depth from some
depth on. -/
theorem document_accepted {reg : Registry} {T : Descriptor} {n : PyVal}
    (hAcc : Accepts reg T n) (hT : Ordered T) (p : String) :
    ∃ r N, ∀ fuel, N ≤ fuel → validatedObjectType reg fuel T n p = .ok r :=
  let ⟨N, r, hr, _⟩ := accepted_at hAcc p hT
  ⟨r, N, fun _ h => (validatedObjectType_fuel_mono h (by simp [hr])).trans hr⟩

/-- A listener: an interface, and a port its transformation function `_port` sets to 53. -/
def listenerSchema : SchemaClass :=
  ⟨"Listener", [("interface", .str), ("port", .union [.int, .noneType])],
    [("_port", .method 1 fun _ => .ok (.int 53))], none, by decide⟩

/-- A server: its listeners, and a number of workers that defaults to one. -/
def serverSchema : SchemaClass :=
  ⟨"Server", [("listen", .list (.schema "Listener")), ("workers", .int)],
    [("workers", .value (.int 1))], none, by decide⟩

/-- The registry declaring both. -/
def serverRegistry : Registry :=
  { Registry.empty with schema? := fun n =>
      if n = "Server" then some serverSchema else if n = "Listener" then some listenerSchema
      else none }

theorem listenerSchema_fields :
    listenerSchema.fields = [("interface", .str), ("port", .union [.int, .noneType])] := rfl

theorem serverSchema_fields :
    serverSchema.fields = [("listen", .list (.schema "Listener")), ("workers", .int)] := rfl

theorem listenerSchema_ready : ClassReady listenerSchema where
  previous := rfl
  reserved := by decide
  transforms := SchemaClass.forall_fields listenerSchema_fields
    ⟨nofun, fun _ h => by cases h; exact ⟨rfl, 1, _, rfl, .inl rfl⟩⟩
  ordered := SchemaClass.forall_fields listenerSchema_fields ⟨.str, .optional .int⟩
  validates _ _ := rfl

theorem serverSchema_ready : ClassReady serverSchema where
  previous := rfl
  reserved := by decide
  transforms := SchemaClass.forall_fields serverSchema_fields ⟨nofun, nofun⟩
  ordered := SchemaClass.forall_fields serverSchema_fields ⟨.list (.schema _), .int⟩
  validates _ _ := rfl

/-- A server with one listener on `eth0` builds: `workers` takes its default, and the
listener's `port` comes from its transformation function. -/
theorem server_document_accepted :
    ∃ r N, ∀ fuel, N ≤ fuel →
      validatedObjectType serverRegistry fuel (.schema "Server")
        (.dict [(.str "listen", .list [.dict [(.str "interface", .str "eth0")]])]) "" = .ok r := by
  have hInner : IsTree (.dict [(.str "interface", .str "eth0")]) :=
    .dict (by simp [PyVal.isScalar]) (by simp [IsTree.str]) (List.pairwise_singleton _ _)
  have hOuter : IsTree (.dict [(.str "listen", .list [.dict [(.str "interface", .str "eth0")]])]) :=
    .dict (by simp [PyVal.isScalar]) (by simpa using IsTree.list (by simpa using hInner))
      (List.pairwise_singleton _ _)
  have hListener : Accepts serverRegistry (.schema "Listener")
      (.dict [(.str "interface", .str "eth0")]) :=
    .schema rfl (by decide) listenerSchema_ready hInner
      (by simp [KeysDeclared, listenerSchema, SchemaClass.fields, isInternalFieldName])
      (SchemaClass.forall_fields listenerSchema_fields
        ⟨nofun, fun _ _ h => by cases h; exact ⟨_, rfl⟩⟩)
      (SchemaClass.forall_fields listenerSchema_fields
        ⟨nofun, fun _ _ _ h hv => by
          cases h
          cases hv
          exact .union (List.mem_cons_self _ _) (.int 53) (.int 53)⟩)
      (SchemaClass.forall_fields listenerSchema_fields
        ⟨by simp [listenerSchema, sourceGet, PyVal.pyEq]; exact .strOfStr _,
          by simp [listenerSchema]⟩)
      (SchemaClass.forall_fields listenerSchema_fields
        ⟨by simp [sourceGet, PyVal.pyEq], by simp [listenerSchema]⟩)
      (SchemaClass.forall_fields listenerSchema_fields
        ⟨by simp [sourceGet, PyVal.pyEq], by simp [listenerSchema]⟩)
  refine document_accepted (.schema rfl (by decide) serverSchema_ready hOuter
    (by simp [KeysDeclared, serverSchema, SchemaClass.fields, isInternalFieldName])
    (SchemaClass.forall_fields serverSchema_fields ⟨nofun, nofun⟩)
    (SchemaClass.forall_fields serverSchema_fields ⟨nofun, nofun⟩)
    (SchemaClass.forall_fields serverSchema_fields
      ⟨by
        simp [serverSchema, sourceGet, PyVal.pyEq]
        exact .list fun x hx => by
          simp at hx
          subst hx
          exact hListener,
        by simp [sourceGet, PyVal.pyEq]⟩)
    (SchemaClass.forall_fields serverSchema_fields
      ⟨by simp [sourceGet, PyVal.pyEq], by
        simp [serverSchema, Attr.toValue]
        exact fun _ => .int 1⟩)
    (SchemaClass.forall_fields serverSchema_fields
      ⟨by simp [sourceGet, PyVal.pyEq], by simp [serverSchema]⟩)) (.schema _) ""

end KnotSchema
