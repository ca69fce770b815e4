import KnotSchema.Spec.Construction

/-! The attribute probing of `_assign_fields` against an explicit declaration of each field's
value source. `hasattr(self, "_f")` and `hasattr(self, f)` see the whole instance and
`SchemaNode`'s own members; for field names that none of those claim, the probing picks the
tag the author declared. -/
namespace KnotSchema

/-- Where the author's declaration says a field's value comes from. -/
inductive FieldTag where
  | transform
  | default (d : PyVal)
  | optional
  | required

/-- The declared tag of field `name : T` of `cls`: `transform` when the author defines
`_name`, `default d` for a class-level value `d`, then `optional` or `required` by the type. -/
def declaredTag (cls : SchemaClass) (name : String) (T : Descriptor) : FieldTag :=
  if (cls.attrs.lookup ("_" ++ name)).isSome then .transform
  else match cls.attrs.lookup name with
    | some a => .default (a.toValue (cls.name ++ "." ++ name))
    | none => if T.isOptional then .optional else .required

/-- The field names `SchemaNode` itself claims: probing `_name` or `name` finds
`_PREVIOUS_SCHEMA`, one of its methods, or the instance's `_source`. -/
def isReservedFieldName (name : String) : Bool :=
  name == "PREVIOUS_SCHEMA" || name == "source" || (schemaNodeMethod ("_" ++ name)).isSome ||
    (schemaNodeMethod name).isSome

/-- The branch the declared tag selects, given the source's value for the field, if any. -/
def declaredBranch : FieldTag → Option PyVal → FieldBranch
  | .transform, _ => .transform
  | .default _, some v => .direct v
  | .optional, some v => .direct v
  | .required, some v => .direct v
  | .default _, none => .default
  | .optional, none => .default
  | .required, none => .missing

/-- The value the declaration gives field `name : T`: the transformation function's result
validated, else the source's value validated, else the default validated, else `None` for an
optional field; a required field absent from the source is missing. -/
def declaredValue (reg : Registry) (c : Calls) (cls : SchemaClass) (source : PyVal)
    (path name : String) (T : Descriptor) : Except PyErr PyVal :=
  match declaredTag cls name T, sourceGet reg source name with
  | .transform, _ => getConvertedValue cls name source path >>= fun v =>
      c.validate T v (path ++ "/" ++ name)
  | .default _, some v => c.validate T v (path ++ "/" ++ name)
  | .optional, some v => c.validate T v (path ++ "/" ++ name)
  | .required, some v => c.validate T v (path ++ "/" ++ name)
  | .default d, none => c.validate T d (path ++ "/" ++ name)
  | .optional, none => .ok .none
  | .required, none => .error (.schema ("Missing attribute '" ++ name ++ "'.") path)

theorem underscore_append_inj {a b : String} (h : "_" ++ a = "_" ++ b) : a = b :=
  String.ext (by simpa using congrArg String.data h)

theorem isInternalFieldName_underscore (name : String) :
    isInternalFieldName ("_" ++ name) = true := by
  simp [isInternalFieldName, String.toList]

section Probing

variable {reg : Registry} {cls : SchemaClass} {attrs : List (String × PyVal)}
  {selfSource : PyVal} {name : String}

/-- For a name `SchemaNode` does not claim, `hasattr(self, "_name")` is the author's `_name`. -/
theorem hasAttr_underscore (hReserved : isReservedFieldName name = false)
    (hAttrs : attrs.lookup ("_" ++ name) = none) :
    cls.hasAttr attrs selfSource ("_" ++ name) = (cls.attrs.lookup ("_" ++ name)).isSome := by
  have hSource : "_" ++ name ≠ "_source" := fun h => by
    have := underscore_append_inj (h.trans (rfl : "_source" = "_" ++ "source"))
    simp_all [isReservedFieldName]
  have hPrevious : "_" ++ name ≠ "_PREVIOUS_SCHEMA" := fun h => by
    have := underscore_append_inj (h.trans (rfl : "_PREVIOUS_SCHEMA" = "_" ++ "PREVIOUS_SCHEMA"))
    simp_all [isReservedFieldName]
  have hMethod : schemaNodeMethod ("_" ++ name) = none := by
    simp_all [isReservedFieldName]
  simp only [SchemaClass.hasAttr, SchemaClass.instanceAttr, SchemaClass.classAttr, hSource,
    hPrevious, hAttrs, if_false]
  cases cls.attrs.lookup ("_" ++ name) <;> simp [hMethod]

/-- For a non-internal name `SchemaNode` does not claim and not yet assigned,
`hasattr(self, name)` is the author's class-level `name`. -/
theorem hasAttr_plain (hReserved : isReservedFieldName name = false)
    (hInternal : isInternalFieldName name = false) (hAttrs : attrs.lookup name = none) :
    cls.hasAttr attrs selfSource name = (cls.attrs.lookup name).isSome := by
  have hSource : name ≠ "_source" := by rintro rfl; cases hInternal
  have hPrevious : name ≠ "_PREVIOUS_SCHEMA" := by rintro rfl; cases hInternal
  have hMethod : schemaNodeMethod name = none := by simp_all [isReservedFieldName]
  simp only [SchemaClass.hasAttr, SchemaClass.instanceAttr, SchemaClass.classAttr, hSource,
    hPrevious, hAttrs, if_false]
  cases cls.attrs.lookup name <;> simp [hMethod]

/-- The probe takes exactly the branch the declared tag selects. -/
theorem fieldBranch_eq_declared {source : PyVal} {T : Descriptor} (hSource : source ≠ .none)
    (hReserved : isReservedFieldName name = false) (hInternal : isInternalFieldName name = false)
    (hAttrs : attrs.lookup name = none) (hAttrsUnderscore : attrs.lookup ("_" ++ name) = none)
    (hExclusive : ¬((cls.attrs.lookup ("_" ++ name)).isSome ∧ (cls.attrs.lookup name).isSome)) :
    fieldBranch reg cls attrs selfSource source name T =
      declaredBranch (declaredTag cls name T) (sourceGet reg source name) := by
  unfold fieldBranch
  split
  · exact absurd rfl hSource
  · rw [hasAttr_underscore hReserved hAttrsUnderscore, hasAttr_plain hReserved hInternal hAttrs]
    unfold declaredTag
    cases hF : cls.attrs.lookup ("_" ++ name) with
    | some f =>
        have hD : cls.attrs.lookup name = none :=
          Option.not_isSome_iff_eq_none.mp fun hD => hExclusive ⟨by simp [hF], hD⟩
        simp [hD, declaredBranch]
    | none =>
        cases cls.attrs.lookup name <;> cases sourceGet reg source name <;>
          cases T.isOptional <;> rfl

/-- For a non-internal name `SchemaNode` does not claim, `getattr(cls, name)` is the author's. -/
theorem classAttr_plain (hReserved : isReservedFieldName name = false)
    (hInternal : isInternalFieldName name = false) :
    cls.classAttr name = cls.attrs.lookup name := by
  have hPrevious : name ≠ "_PREVIOUS_SCHEMA" := by rintro rfl; cases hInternal
  have hMethod : schemaNodeMethod name = none := by simp_all [isReservedFieldName]
  simp only [SchemaClass.classAttr, hPrevious, if_false]
  cases cls.attrs.lookup name <;> simp [hMethod]

/-- The value one iteration of the probing loop assigns is the declared value. -/
theorem assignOne_eq_declared {c : Calls} {source : PyVal} {path : String} {T : Descriptor}
    {v : PyVal} {u : Bool} (hNone : ∀ T p v, c.validate T .none p = .ok v → v = .none)
    (hSource : source ≠ .none) (hReserved : isReservedFieldName name = false)
    (hInternal : isInternalFieldName name = false) (hAttrs : attrs.lookup name = none)
    (hAttrsUnderscore : attrs.lookup ("_" ++ name) = none)
    (hExclusive : ¬((cls.attrs.lookup ("_" ++ name)).isSome ∧ (cls.attrs.lookup name).isSome))
    (h : assignOne reg c cls attrs selfSource source path name T = .ok (v, u)) :
    declaredValue reg c cls source path name T = .ok v := by
  unfold assignOne at h
  rw [fieldBranch_eq_declared hSource hReserved hInternal hAttrs hAttrsUnderscore hExclusive] at h
  simp only [assignDefault, classAttr_plain hReserved hInternal] at h
  unfold declaredValue
  unfold declaredTag at h ⊢
  by_cases hF : (cls.attrs.lookup ("_" ++ name)).isSome
  · simp only [hF, if_true, declaredBranch, except_bind_eq_ok, pure, Except.pure] at h ⊢
    obtain ⟨w, hw, r, hr, hEq⟩ := h
    cases hEq
    exact ⟨w, hw, hr⟩
  · simp only [hF, Bool.false_eq_true, if_false] at h ⊢
    cases hD : cls.attrs.lookup name <;> cases hS : sourceGet reg source name <;>
      cases hO : T.isOptional <;>
      simp only [hD, hS, hO, declaredBranch, Option.map_some', Option.map_none', Option.getD_some,
        Option.getD_none, if_true, if_false, Bool.false_eq_true, Bool.or_true, Bool.or_false,
        except_map_pair_eq_ok] at h ⊢
    all_goals first | exact h.1 | exact congrArg Except.ok (hNone _ _ _ h.1).symm | cases h

/-- Before the loop reaches a field, the instance holds neither the field's name nor its
underscored name: annotations are unique, and only non-internal names are assigned. -/
theorem lookup_before_field {c : Calls} {source : PyVal} {path : String} {T : Descriptor}
    {pre post : List (String × Descriptor)} {used : List String}
    (hAnn : cls.annotations = pre ++ (name, T) :: post)
    (h : assignFields reg c cls selfSource source path pre [] [] = .ok (attrs, used)) :
    attrs.lookup name = none ∧ attrs.lookup ("_" ++ name) = none := by
  have hNodup := cls.annotations_nodup
  rw [hAnn] at hNodup
  have hFresh : name ∉ pre.map Prod.fst := by
    simp only [List.map_append, List.map_cons, List.Nodup, List.pairwise_append] at hNodup
    exact fun hMem => hNodup.2.2 _ hMem _ (List.mem_cons_self _ _) rfl
  have hKeys := assignFields_keys h
  constructor <;> refine List.lookup_eq_none_iff.mpr fun p hp => ?_
  · obtain ⟨hMem, -⟩ := (hKeys p hp).resolve_left (List.not_mem_nil p)
    exact bne_iff_ne.mpr fun hEq => hFresh (hEq ▸ hMem)
  · obtain ⟨-, hInt⟩ := (hKeys p hp).resolve_left (List.not_mem_nil p)
    exact bne_iff_ne.mpr fun hEq => by simp [← hEq, isInternalFieldName_underscore] at hInt

end Probing

theorem declaredBranch_eq_missing {t : FieldTag} {v : Option PyVal} :
    declaredBranch t v = .missing ↔ t = .required ∧ v = none := by
  cases t <;> cases v <;> simp [declaredBranch]

section Declared

variable {reg : Registry} {S : SchemaClass}

/-- A class without a previous schema, whose field names `SchemaNode` does not claim and whose
fields have no default next to a transformation function: built from a map, every field holds
the value its declared tag gives, and the field loop takes the branch that tag selects, so the
missing-attribute error is raised exactly for a required field absent from the map. -/
theorem probing_picks_declared_tag (hPrev : S.previous = none)
    (hReserved : ∀ f ∈ S.fields, isReservedFieldName f.1 = false)
    (hExclusive : ∀ f ∈ S.fields,
      ¬((S.attrs.lookup ("_" ++ f.1)).isSome ∧ (S.attrs.lookup f.1).isSome)) :
    (∀ n es path inst, schemaNode reg (n + 1) S (.dict es) path = .ok inst →
      ∃ attrs, inst = .node S.name attrs (.dict es) ∧
        ∀ f ∈ S.fields, ∃ v, attrs.lookup f.1 = some v ∧
          declaredValue reg (calls reg n) S (.dict es) path f.1 f.2 = .ok v) ∧
    (∀ c es path pre name T post attrs used, S.annotations = pre ++ (name, T) :: post →
      isInternalFieldName name = false →
      assignFields reg c S (.dict es) (.dict es) path pre [] [] = .ok (attrs, used) →
      fieldBranch reg S attrs (.dict es) (.dict es) name T =
          declaredBranch (declaredTag S name T) (sourceGet reg (.dict es) name) ∧
        (fieldBranch reg S attrs (.dict es) (.dict es) name T = .missing ↔
          declaredTag S name T = .required ∧ sourceGet reg (.dict es) name = none)) := by
  have hBranch : ∀ (c : Calls) es path pre name T post attrs used,
      S.annotations = pre ++ (name, T) :: post → isInternalFieldName name = false →
      assignFields reg c S (.dict es) (.dict es) path pre [] [] = .ok (attrs, used) →
      fieldBranch reg S attrs (.dict es) (.dict es) name T =
        declaredBranch (declaredTag S name T) (sourceGet reg (.dict es) name) := by
    intro c es path pre name T post attrs used hAnn hInt hPre
    have hField : (name, T) ∈ S.fields := List.mem_filter.mpr ⟨hAnn ▸ by simp, by simp [hInt]⟩
    obtain ⟨hName, hUnder⟩ := lookup_before_field hAnn hPre
    exact fieldBranch_eq_declared (by simp) (hReserved _ hField) hInt hName hUnder
      (hExclusive _ hField)
  refine ⟨?_, fun c es path pre name T post attrs used hAnn hInt hPre =>
    have h := hBranch c es path pre name T post attrs used hAnn hInt hPre
    ⟨h, h ▸ declaredBranch_eq_missing⟩⟩
  intro n es path inst h
  obtain ⟨effective, attrs, used, hSrc, hFields, -, -, rfl⟩ := initStep_eq_ok h
  simp only [previousSource, hPrev, normalizeSource, Except.ok.injEq] at hSrc hFields
  subst hSrc
  refine ⟨attrs, rfl, fun ⟨name, T⟩ hf => ?_⟩
  obtain ⟨hMem, hInt⟩ := List.mem_filter.mp hf
  replace hInt : isInternalFieldName name = false := by simpa using hInt
  obtain ⟨pre, post, hAnn⟩ := List.append_of_mem hMem
  rw [hAnn] at hFields
  obtain ⟨before, used₀, v, u, rest, hPre, hOne, rfl⟩ := assignFields_reaches hInt hFields
  obtain ⟨hName, hUnder⟩ := lookup_before_field hAnn hPre
  refine ⟨v, by simp [List.lookup_append, hName], ?_⟩
  exact assignOne_eq_declared (fun _ _ _ => calls_validate_none) (by simp) (hReserved _ hf) hInt
    hName hUnder (hExclusive _ hf) hOne

/-- A listener: a port with a default, an optional interface, and a transport computed by
`_kind`. -/
def listenSchema : SchemaClass :=
  ⟨"Listen", [("port", .int), ("interface", .union [.str, .noneType]), ("kind", .str)],
    [("port", .value (.int 53)), ("_kind", .method 1 fun _ => .ok (.str "udp"))], none,
    by decide⟩

/-- Built from a map that gives only the interface, `eth0`, each field of `Listen` holds its
declared value. -/
theorem listenSchema_fields_declared :
    ∃ attrs, schemaNode Registry.empty 3 listenSchema (.dict [(.str "interface", .str "eth0")]) ""
        = .ok (.node "Listen" attrs (.dict [(.str "interface", .str "eth0")])) ∧
      ∀ f ∈ listenSchema.fields, ∃ v, attrs.lookup f.1 = some v ∧
        declaredValue Registry.empty (calls Registry.empty 2) listenSchema
          (.dict [(.str "interface", .str "eth0")]) "" f.1 f.2 = .ok v := by
  have h : schemaNode Registry.empty 3 listenSchema (.dict [(.str "interface", .str "eth0")]) "" =
      .ok (.node "Listen" [("port", .int 53), ("interface", .str "eth0"), ("kind", .str "udp")]
        (.dict [(.str "interface", .str "eth0")])) := rfl
  obtain ⟨attrs, hInst, hValues⟩ :=
    (probing_picks_declared_tag rfl (by decide) (by decide)).1 2 _ "" _ h
  exact ⟨attrs, hInst ▸ h, hValues⟩

/-- `class Checked(SchemaNode): validate: Optional[int]`, with no default and no
transformation function. -/
def checkedSchema : SchemaClass :=
  ⟨"Checked", [("validate", .union [.int, .noneType])], [], none, by decide⟩

/-- Built from `{'validate': 5}`, `Checked` holds `None` where its declaration gives the source's
`5`: `hasattr(self, "_validate")` finds `SchemaNode._validate`, the post-construction check, and
the field loop calls it on the source as if it were the field's transformation function. -/
theorem validate_field_ignores_source :
    schemaNode Registry.empty 3 checkedSchema (.dict [(.str "validate", .int 5)]) "" =
      .ok (.node "Checked" [("validate", .none)] (.dict [(.str "validate", .int 5)])) ∧
    declaredValue Registry.empty (calls Registry.empty 2) checkedSchema
      (.dict [(.str "validate", .int 5)]) "" "validate" (.union [.int, .noneType]) = .ok (.int 5) :=
  ⟨rfl, rfl⟩

end Declared

end KnotSchema
