import KnotSchema.Schema.Steps

/-! What a schema construction that returns guarantees about its source: every key of a parsed
tree was consumed by a field of the first schema of the previous-schema chain, and the
instance keeps the tree it was built from. -/
namespace KnotSchema

variable {reg : Registry}

/-- `base` is reached from `cls` by following `_PREVIOUS_SCHEMA` links. -/
inductive PreviousChain (reg : Registry) : SchemaClass → SchemaClass → Prop
  | refl (cls : SchemaClass) : PreviousChain reg cls cls
  | link {cls prev base : SchemaClass} {p : String} (hLink : cls.previous = some p)
      (hPrev : reg.schema? p = some prev) (rest : PreviousChain reg prev base) :
      PreviousChain reg cls base

/-- Every key of the tree names a non-internal field of `cls`. -/
def KeysDeclared (cls : SchemaClass) (es : List (PyVal × PyVal)) : Prop :=
  ∀ k ∈ es.map Prod.fst, ∃ f ∈ cls.fields, k = .str f.1

theorem pyEq_str_iff (k : PyVal) (u : String) : k.pyEq (.str u) = true ↔ k = .str u := by
  cases k <;> simp [PyVal.pyEq]

/-- The check passes only when every key of the tree is a used key. -/
theorem checkUnused_dict {es : List (PyVal × PyVal)} {used : List String} {path : String}
    (h : checkUnused (.dict es) used path = .ok ()) :
    ∀ k ∈ es.map Prod.fst, ∃ u ∈ used, k = .str u := by
  intro k hk
  simp only [checkUnused] at h
  split at h
  · rename_i hEmpty
    have hNot : k ∉ unusedKeys es used := by simp [List.isEmpty_iff.mp hEmpty]
    simp only [unusedKeys, List.mem_filter, hk, true_and, Bool.not_eq_true', not_not,
      List.any_eq_true, pyEq_str_iff] at hNot
    simpa [pyEq_str_iff] using hNot
  · cases h

/-- A construction from a parsed tree that returns used every key of the tree: each names an
own, non-internal field of the first schema in the previous-schema chain, the one that was
built from the tree itself. Nested schemas are constructed by the same `schemaNode`, so the
statement covers every map of the document that was built into a nested schema. -/
theorem sourceKeys_declared {fuel : Nat} {cls : SchemaClass} {es : List (PyVal × PyVal)}
    {path : String} {inst : PyVal} (h : schemaNode reg fuel cls (.dict es) path = .ok inst) :
    ∃ base, PreviousChain reg cls base ∧ base.previous = none ∧ KeysDeclared base es := by
  induction fuel generalizing cls inst with
  | zero => simp [schemaNode] at h
  | succ n ih =>
      obtain ⟨effective, attrs, used, hPrev, hFields, hCheck, -, -⟩ := initStep_eq_ok h
      simp only [normalizeSource, previousSource] at hPrev
      cases hLink : cls.previous with
      | none =>
          simp only [hLink, Except.ok.injEq] at hPrev
          subst hPrev
          have hUsed := assignFields_used (fun u => ∃ f ∈ cls.fields, f.1 = u)
            (fun f hf hInternal => ⟨f, by simp [SchemaClass.fields, hf, hInternal], rfl⟩)
            (by simp) hFields
          refine ⟨cls, .refl cls, hLink, fun k hk => ?_⟩
          obtain ⟨u, hu, rfl⟩ := checkUnused_dict hCheck k hk
          obtain ⟨f, hf, rfl⟩ := hUsed u hu
          exact ⟨f, hf, rfl⟩
      | some p =>
          simp only [hLink] at hPrev
          cases hSchema : reg.schema? p with
          | none => simp [hSchema] at hPrev
          | some prev =>
              simp only [hSchema] at hPrev
              obtain ⟨base, hChain, hBase, hKeys⟩ := ih hPrev
              exact ⟨base, .link hLink hSchema hChain, hBase, hKeys⟩

/-- The chaining example of the specification: `BaseSchema` validates `count`. -/
def baseSchema : SchemaClass := ⟨"BaseSchema", [("count", .int)], [], none, by decide⟩

/-- `DerivedSchema` is built on `BaseSchema` and computes `doubled` from its typed `count`. -/
def derivedSchema : SchemaClass :=
  ⟨"DerivedSchema", [("doubled", .int)],
    [("_doubled", .method 1 fun src =>
      match src with
      | .node _ attrs _ =>
          match attrs.lookup "count" with
          | some (.int i) => .ok (.int (2 * i))
          | _ => .error (.value [.str "count is not an integer"])
      | _ => .error (.value [.str "count is not an integer"]))],
    some "BaseSchema", by decide⟩

/-- The registry declaring `BaseSchema`. -/
def chainRegistry : Registry :=
  { Registry.empty with schema? := fun n => if n = "BaseSchema" then some baseSchema else none }

/-- `{"count": 3}` builds `DerivedSchema` with `doubled == 6`, its key declared by the base. -/
theorem derivedSchema_keys_declared :
    schemaNode chainRegistry 3 derivedSchema (.dict [(.str "count", .int 3)]) "" =
      .ok (.node "DerivedSchema" [("doubled", .int 6)] (.dict [(.str "count", .int 3)])) ∧
    ∃ base, PreviousChain chainRegistry derivedSchema base ∧ base.previous = none ∧
      KeysDeclared base [(.str "count", .int 3)] := by
  have h : schemaNode chainRegistry 3 derivedSchema (.dict [(.str "count", .int 3)]) "" =
      .ok (.node "DerivedSchema" [("doubled", .int 6)] (.dict [(.str "count", .int 3)])) := rfl
  exact ⟨h, sourceKeys_declared h⟩

section Conflict

variable {c : Calls} {cls : SchemaClass} {name : String} {T : Descriptor}

/-- The probe finds both `_name` and `name` whenever the author defines both, whatever has
been assigned so far. -/
theorem fieldBranch_conflict {attrs : List (String × PyVal)} {selfSource source : PyVal}
    (hSource : source ≠ .none) (hDefault : (cls.attrs.lookup name).isSome)
    (hTransform : (cls.attrs.lookup ("_" ++ name)).isSome) :
    fieldBranch reg cls attrs selfSource source name T = .conflict := by
  cases source <;> simp_all [fieldBranch, hasAttr_of_lookup]

/-- A field loop that walks over a conflicting field never returns. -/
theorem assignFields_ne_ok_of_conflict {selfSource source : PyVal} {path : String}
    (hSource : source ≠ .none) (hDefault : (cls.attrs.lookup name).isSome)
    (hTransform : (cls.attrs.lookup ("_" ++ name)).isSome)
    (hInternal : isInternalFieldName name = false) :
    ∀ {fs : List (String × Descriptor)} {attrs : List (String × PyVal)} {used : List String}
      {r : List (String × PyVal) × List String}, (name, T) ∈ fs →
      assignFields reg c cls selfSource source path fs attrs used ≠ .ok r
  | f :: rest, attrs, used, r, hMem => by
      simp only [assignFields]
      rcases List.mem_cons.mp hMem with rfl | hMem
      · simp [hInternal, assignOne, fieldBranch_conflict hSource hDefault hTransform]
      · split
        · exact assignFields_ne_ok_of_conflict hSource hDefault hTransform hInternal hMem
        · split
          · exact assignFields_ne_ok_of_conflict hSource hDefault hTransform hInternal hMem
          · simp

/-- A class with a conflicting field, and every class whose previous-schema chain reaches it,
never returns an instance, whatever the source and the fuel. -/
theorem schemaNode_ne_ok_of_conflict (hField : (name, T) ∈ cls.fields)
    (hDefault : (cls.attrs.lookup name).isSome)
    (hTransform : (cls.attrs.lookup ("_" ++ name)).isSome) {top : SchemaClass}
    (hChain : PreviousChain reg top cls) (fuel : Nat) (source : PyVal) (path : String)
    (inst : PyVal) : schemaNode reg fuel top source path ≠ .ok inst := by
  obtain ⟨hAnn, hInternal⟩ := List.mem_filter.mp hField
  induction fuel generalizing top source inst with
  | zero => simp [schemaNode]
  | succ n ih =>
      intro h
      obtain ⟨effective, attrs, used, hPrev, hFields, -, -, -⟩ := initStep_eq_ok h
      cases hChain with
      | refl =>
          exact assignFields_ne_ok_of_conflict (previousSource_ne_none hPrev) hDefault
            hTransform (by simpa using hInternal) hAnn hFields
      | link hLink hSchema rest =>
          simp only [previousSource, hLink, hSchema] at hPrev
          exact ih rest _ _ hPrev

/-- A field that declares both a class-level default and a transformation function: the
construction of its class, and of every class whose previous-schema chain reaches it, never
returns an instance. The construction of the class itself raises the `RuntimeError` defect once
its previous schema, if any, has been built from the source and every field declared before the
conflicting one has been assigned. The previous schema or an earlier field can fail first with a
`SchemaException`, and a nested schema that is never built raises nothing. -/
theorem conflicting_field_aborts (hField : (name, T) ∈ cls.fields)
    (hDefault : (cls.attrs.lookup name).isSome)
    (hTransform : (cls.attrs.lookup ("_" ++ name)).isSome) :
    (∀ {top : SchemaClass}, PreviousChain reg top cls → ∀ fuel source path inst,
        schemaNode reg fuel top source path ≠ .ok inst) ∧
    (∀ {n : Nat} {source effective : PyVal} {path : String}
        {pre post : List (String × Descriptor)} {attrs : List (String × PyVal)}
        {used : List String},
        cls.annotations = pre ++ (name, T) :: post →
        previousSource reg (calls reg n) cls (normalizeSource source) path = .ok effective →
        assignFields reg (calls reg n) cls (normalizeSource source) effective path pre [] [] =
          .ok (attrs, used) →
        schemaNode reg (n + 1) cls source path = .error (.runtime (conflictMessage cls name))) := by
  refine ⟨schemaNode_ne_ok_of_conflict hField hDefault hTransform, ?_⟩
  intro n source effective path pre post attrs used hAnn hPrev hPre
  have hInternal : isInternalFieldName name = false := by
    simpa using (List.mem_filter.mp hField).2
  simp only [schemaNode, calls_succ_init, initStep, hPrev, hAnn, assignFields_append, hPre]
  simp [bind, Except.bind, assignFields, hInternal, assignOne, hPre,
    fieldBranch_conflict (previousSource_ne_none hPrev) hDefault hTransform]

/-- A class whose second field conflicts, the first being required. -/
def portThenConflict : SchemaClass :=
  ⟨"PortThenConflict", [("port", .int), ("x", .int)],
    [("x", .value (.int 1)), ("_x", .method 1 fun _ => .ok (.int 2))], none, by decide⟩

/-- A class whose only field conflicts. -/
def conflictOnly : SchemaClass :=
  ⟨"ConflictOnly", [("x", .int)],
    [("x", .value (.int 1)), ("_x", .method 1 fun _ => .ok (.int 2))], none, by decide⟩

/-- A class that nests `ConflictOnly` under an optional field. -/
def optionalConflict : SchemaClass :=
  ⟨"OptionalConflict", [("child", .union [.schema "ConflictOnly", .noneType])], [], none,
    by decide⟩

/-- A schema of one required field `a`. -/
def prevA : SchemaClass := ⟨"PrevA", [("a", .int)], [], none, by decide⟩

/-- A class whose only field conflicts, built on `PrevA`. -/
def conflictAfterPrev : SchemaClass :=
  ⟨"ConflictAfterPrev", [("x", .int)],
    [("x", .value (.int 1)), ("_x", .method 1 fun _ => .ok (.int 2))], some "PrevA", by decide⟩

/-- The registry declaring `ConflictOnly` and `PrevA`. -/
def conflictRegistry : Registry :=
  { Registry.empty with schema? := fun n =>
      if n = "ConflictOnly" then some conflictOnly else if n = "PrevA" then some prevA else none }

/-- From `{}`, a missing required field is reported before the conflicting field is reached,
as an operator-facing `SchemaException`, and so is one of the previous schema, which is built
before the field loop starts; a schema that nests a conflicting schema under an absent optional
field is built without complaint. -/
theorem conflict_hidden_by_earlier_field :
    schemaNode conflictRegistry 2 portThenConflict (.dict []) "" =
      .error (.schema "Missing attribute 'port'." "") ∧
    schemaNode conflictRegistry 3 conflictAfterPrev (.dict []) "" =
      .error (.schema "Missing attribute 'a'." "") ∧
    schemaNode conflictRegistry 3 optionalConflict (.dict []) "" =
      .ok (.node "OptionalConflict" [("child", .none)] (.dict [])) :=
  ⟨rfl, rfl, rfl⟩

/-- `ConflictOnly` aborts from `{}` with the defect. -/
theorem conflictOnly_aborts :
    schemaNode conflictRegistry 2 conflictOnly (.dict []) "" =
      .error (.runtime (conflictMessage conflictOnly "x")) := by
  have hField : ("x", Descriptor.int) ∈ conflictOnly.fields :=
    List.mem_filter.mpr ⟨List.mem_singleton_self _, rfl⟩
  have hAnn : conflictOnly.annotations = [] ++ ("x", Descriptor.int) :: [] := rfl
  exact (conflicting_field_aborts hField rfl rfl).2 hAnn rfl rfl

end Conflict

section Order

variable {c : Calls} {cls : SchemaClass} {selfSource source : PyVal} {path : String}

/-- `_assign_fields` assigns the fields in declaration order, whatever their value source; its
docstring's order, all direct assignments and then those with a conversion method, is not the
loop's. The loop raises `e` exactly when a non-internal field, reached with every field declared
before it assigned, raises `e`: the first failing field in declaration order decides the error. -/
theorem field_loop_fails_in_declaration_order {fs : List (String × Descriptor)}
    {attrs : List (String × PyVal)} {used : List String} {e : PyErr} :
    assignFields reg c cls selfSource source path fs attrs used = .error e ↔
      ∃ pre f post attrs' used', fs = pre ++ f :: post ∧ isInternalFieldName f.1 = false ∧
        assignFields reg c cls selfSource source path pre attrs used = .ok (attrs', used') ∧
        assignOne reg c cls attrs' selfSource source path f.1 f.2 = .error e := by
  constructor
  · intro h
    induction fs generalizing attrs used with
    | nil => cases h
    | cons f rest ih =>
        simp only [assignFields] at h
        split at h
        · rename_i hInternal
          obtain ⟨pre, g, post, attrs', used', rfl, hInt, hPre, hg⟩ := ih h
          exact ⟨f :: pre, g, post, attrs', used', rfl, hInt,
            by simp [assignFields, hInternal, hPre], hg⟩
        · rename_i hInternal
          split at h
          · rename_i v u hOne
            obtain ⟨pre, g, post, attrs', used', rfl, hInt, hPre, hg⟩ := ih h
            exact ⟨f :: pre, g, post, attrs', used', rfl, hInt,
              by simpa [assignFields, hInternal, hOne] using hPre, hg⟩
          · rename_i e' hOne
            cases h
            exact ⟨[], f, rest, attrs, used, rfl, Bool.eq_false_iff.mpr hInternal, rfl, hOne⟩
  · rintro ⟨pre, ⟨name, T⟩, post, attrs', used', rfl, hInt, hPre, hf⟩
    rw [assignFields_append, hPre]
    show assignFields reg c cls selfSource source path ((name, T) :: post) attrs' used' = _
    simp only [assignFields, hInt, hf, Bool.false_eq_true, if_false]

/-- A transformed field declared before a required one. -/
def transformFirst : SchemaClass :=
  ⟨"TransformFirst", [("port_text", .str), ("port", .int)],
    [("_port_text", .method 1 fun _ => .error (.value [.str "bad port"]))], none, by decide⟩

/-- From `{}`, the transformation's error is raised, although the required field `port` is
missing too. -/
example :
    assignFields Registry.empty (calls Registry.empty 1) transformFirst (.dict []) (.dict []) ""
      transformFirst.annotations [] [] = .error (.schema "bad port" "") :=
  field_loop_fails_in_declaration_order.mpr
    ⟨[], ("port_text", .str), [("port", .int)], [], [], rfl, rfl, rfl, rfl⟩

end Order

end KnotSchema
