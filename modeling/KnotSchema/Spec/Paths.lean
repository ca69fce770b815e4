import KnotSchema.Schema.Steps

/-! Where a `SchemaException` points. Validation and construction extend the object path as
they descend (`[]`, ` @ key k`, ` @ value for key k`, `/name`), and every exception they raise
carries a path that begins with the path they were given, provided the author's functions and
the custom types do not raise their own. The field-level exceptions of `_assign_fields` do not
all name the field: a missing field and a failed transformation are reported at the schema's
own path. -/
namespace KnotSchema

/-- Every `SchemaException` among the errors carries a path that begins with `p`. -/
def PathWithin (p : String) : PyErr → Prop
  | .schema _ q => p.data <+: q.data
  | _ => True

theorem pathWithin_self (p msg : String) : PathWithin p (.schema msg p) :=
  List.prefix_refl p.data

theorem PathWithin.of_append {p s : String} {e : PyErr} (h : PathWithin (p ++ s) e) :
    PathWithin p e := by
  cases e with
  | schema msg q => exact (List.prefix_append p.data s.data).trans (by simpa using h)
  | _ => trivial

/-- The author's transformation functions and `_validate` report a bad value by `ValueError`
(or let a `TypeError` through), never by a `SchemaException` of their own. -/
def MethodsQuiet (cls : SchemaClass) : Prop :=
  ∀ name params body, (name, Attr.method params body) ∈ cls.attrs →
    ∀ v msg q, body v ≠ .error (.schema msg q)

/-- The custom types report at the path they are given, and every registered schema's
functions are quiet. -/
structure PathsRespected (reg : Registry) : Prop where
  leaf : ∀ n v p e, (reg.leaf n).create v p = .error e → PathWithin p e
  quiet : ∀ n S, reg.schema? n = some S → MethodsQuiet S

/-- The two recursive calls keep every exception under the path they were given. -/
structure KeepsPaths (c : Calls) : Prop where
  validate : ∀ T v p e, c.validate T v p = .error e → PathWithin p e
  init : ∀ S v p e, MethodsQuiet S → c.init S v p = .error e → PathWithin p e

/-- A function `getattr` finds on a quiet class raises no `SchemaException`: `SchemaNode`'s
own members never do. -/
theorem classAttr_quiet {cls : SchemaClass} {name : String} {params : Nat}
    {body : PyVal → Except PyErr PyVal} (hQuiet : MethodsQuiet cls)
    (h : cls.classAttr name = some (.method params body)) (v : PyVal) (msg q : String) :
    body v ≠ .error (.schema msg q) := by
  unfold SchemaClass.classAttr at h
  split at h
  · cases hPrev : cls.previous <;> simp only [hPrev, previousAttr, Option.some.injEq] at h
    · cases h
    · cases h
      simp
  · split at h
    · rename_i a hLookup
      cases h
      obtain ⟨l₁, l₂, hAttrs, -⟩ := List.lookup_eq_some_iff.mp hLookup
      exact hQuiet name params body (by simp [hAttrs]) v msg q
    · unfold schemaNodeMethod at h
      split at h <;> cases h <;> simp

theorem getConvertedValue_paths {cls : SchemaClass} {key : String} {source : PyVal} {p : String}
    {e : PyErr} (hQuiet : MethodsQuiet cls) (h : getConvertedValue cls key source p = .error e) :
    PathWithin p e := by
  unfold getConvertedValue at h
  cases hA : cls.classAttr ("_" ++ key) with
  | none =>
      simp only [hA] at h
      cases h
      trivial
  | some a =>
      cases a with
      | value v =>
          simp only [hA] at h
          cases h
          trivial
      | method params body =>
          have hq := classAttr_quiet hQuiet hA source
          simp only [hA] at h
          split_ifs at h
          · cases hb : body source with
            | ok r => simp [hb] at h
            | error e' =>
                cases e' <;> simp only [hb, Except.error.injEq] at h <;> subst h <;>
                  first | trivial | exact pathWithin_self _ _ | exact absurd hb (hq _ _)
          · cases h
            trivial

section Step

variable {reg : Registry} {c : Calls} (hReg : PathsRespected reg) (hc : KeepsPaths c)
include hReg hc

theorem validateValue_paths {T : Descriptor} {v : PyVal} {p : String} {e : PyErr}
    (h : validateValue reg c T v p = .error e) : PathWithin p e := by
  cases T with
  | dict K V =>
      simp only [validateValue, validateDict] at h
      split at h
      · cases h
      · cases h
        exact pathWithin_self _ _
      · rename_i hBuilt
        cases h
        split at hBuilt
        · rcases validateEntries_eq_error hBuilt with ⟨kv, -, hk | hv⟩ | ⟨msg, rfl⟩
          · exact ((hc.validate _ _ _ _ hk).of_append).of_append
          · exact ((hc.validate _ _ _ _ hv).of_append).of_append
          · trivial
        · cases hBuilt
          trivial
  | list E =>
      simp only [validateValue, validateList] at h
      split at h
      · obtain ⟨w, -, hw⟩ := validateItems_eq_error (except_map_eq_error.mp h)
        exact (hc.validate _ _ _ _ hw).of_append
      · cases h
        cases v <;> trivial
  | tuple ts =>
      simp only [validateValue, validateTuple] at h
      split at h
      · obtain ⟨q, -, hq⟩ := validatePairs_eq_error (except_map_eq_error.mp h)
        exact hc.validate _ _ _ _ hq
      · split at h
        · split at h <;> cases h
          trivial
        · cases h
          cases v <;> trivial
  | leaf n =>
      simp only [validateValue] at h
      split at h
      · cases h
      · exact hReg.leaf _ _ _ _ (except_map_eq_error.mp h)
  | schema n =>
      simp only [validateValue] at h
      split at h
      · cases h
      · split at h
        · rename_i S hS
          split at h
          · exact hc.init _ _ _ _ (hReg.quiet _ _ hS) h
          · exact hc.init _ _ _ _ (hReg.quiet _ _ hS) h
          · cases h
            exact pathWithin_self _ _
        · cases h
          exact pathWithin_self _ _
  | int =>
      simp only [validateValue, validateInt] at h
      split at h <;> (try split at h) <;> cases h <;> first | trivial | exact pathWithin_self _ _
  | str =>
      simp only [validateValue, validateStr] at h
      split at h <;> cases h <;> exact pathWithin_self _ _
  | enum n =>
      simp only [validateValue] at h
      split at h <;> (try split at h) <;> cases h <;> exact pathWithin_self _ _
  | bool | literal _ | other _ =>
      simp only [validateValue] at h
      split at h <;> cases h
      exact pathWithin_self _ _
  | float | noneType | union _ =>
      simp only [validateValue] at h
      cases h
      first | trivial | exact pathWithin_self _ _

theorem validateStep_paths {T : Descriptor} {v : PyVal} {p : String} {e : PyErr}
    (h : validateStep reg c T v p = .error e) : PathWithin p e := by
  unfold validateStep at h
  split at h
  · split at h <;> cases h
    exact pathWithin_self _ _
  · rcases unionVariants_eq_error h with ⟨w, -, hw⟩ | ⟨msg, rfl⟩
    · exact hc.validate _ _ _ _ hw
    · exact pathWithin_self _ _
  · split at h
    · cases h
      exact pathWithin_self _ _
    · exact validateValue_paths hReg hc h

omit hReg in
theorem assignOne_paths {cls : SchemaClass} {attrs : List (String × PyVal)}
    {selfSource source : PyVal} {p name : String} {T : Descriptor} {e : PyErr}
    (hQuiet : MethodsQuiet cls)
    (h : assignOne reg c cls attrs selfSource source p name T = .error e) : PathWithin p e := by
  unfold assignOne at h
  split at h
  · exact (hc.validate _ _ _ _ (except_map_eq_error.mp h)).of_append.of_append
  · cases h
    trivial
  · simp only [except_bind_eq_error] at h
    rcases h with h | ⟨w, -, h | ⟨r, -, h⟩⟩
    · exact getConvertedValue_paths hQuiet h
    · exact (hc.validate _ _ _ _ h).of_append.of_append
    · cases h
  · exact (hc.validate _ _ _ _ (except_map_eq_error.mp h)).of_append.of_append
  · cases h
    exact pathWithin_self _ _

theorem initStep_paths {cls : SchemaClass} {source : PyVal} {p : String} {e : PyErr}
    (hQuiet : MethodsQuiet cls) (h : initStep reg c cls source p = .error e) : PathWithin p e := by
  rcases initStep_eq_error h with h | ⟨effective, -, h | ⟨attrs, used, h | h⟩⟩
  · unfold previousSource at h
    split at h
    · cases h
    · split at h
      · rename_i S hS
        exact hc.init _ _ _ _ (hReg.quiet _ _ hS) h
      · cases h
        trivial
  · obtain ⟨f, -, -, attrs', hf⟩ := assignFields_eq_error h
    exact assignOne_paths hc hQuiet hf
  · unfold checkUnused at h
    split at h
    · split at h <;> cases h
      exact pathWithin_self _ _
    · cases h
  · unfold callValidate at h
    cases hA : cls.classAttr "_validate" with
    | none => simp [hA] at h
    | some a =>
        cases a with
        | value v =>
            simp only [hA] at h
            cases h
            trivial
        | method params body =>
            have hq := classAttr_quiet hQuiet hA (.node cls.name attrs (normalizeSource source))
            simp only [hA] at h
            split_ifs at h
            · cases hb : body (.node cls.name attrs (normalizeSource source)) with
              | ok r => simp [hb] at h
              | error e' =>
                  cases e' <;> simp only [hb, Except.error.injEq] at h <;> subst h <;>
                    first | trivial | exact pathWithin_self _ _ | exact absurd hb (hq _ _)
            · cases h
              trivial

theorem keepsPaths_step : KeepsPaths (c.step reg) :=
  ⟨fun _ _ _ _ h => validateStep_paths hReg hc h,
    fun _ _ _ _ hQuiet h => initStep_paths hReg hc hQuiet h⟩

end Step

theorem keepsPaths_calls {reg : Registry} (hReg : PathsRespected reg) :
    ∀ n, KeepsPaths (calls reg n)
  | 0 => ⟨fun _ _ _ _ h => by cases h; trivial, fun _ _ _ _ _ h => by cases h; trivial⟩
  | n + 1 => keepsPaths_step hReg (keepsPaths_calls hReg n)

/-- Error paths compose by prefixing: every `SchemaException` validation or construction
raises at path `p` carries a path that begins with `p`, and one raised while validating a
field's value taken from the source, or its default, begins with `p/name`. The author's
functions and the custom types are assumed not to raise `SchemaException`s of their own. -/
theorem error_paths_extend {reg : Registry} (hReg : PathsRespected reg) :
    (∀ n T v p e, validatedObjectType reg n T v p = .error e → PathWithin p e) ∧
    (∀ n S v p e, MethodsQuiet S → schemaNode reg n S v p = .error e → PathWithin p e) ∧
    (∀ n S attrs selfSource source p name T e,
      (∃ v, fieldBranch reg S attrs selfSource source name T = .direct v) ∨
        fieldBranch reg S attrs selfSource source name T = .default →
      assignOne reg (calls reg n) S attrs selfSource source p name T = .error e →
      PathWithin (p ++ "/" ++ name) e) := by
  refine ⟨fun n _ _ _ _ h => (keepsPaths_calls hReg n).validate _ _ _ _ h,
    fun n _ _ _ _ hQuiet h => (keepsPaths_calls hReg n).init _ _ _ _ hQuiet h,
    fun n S attrs selfSource source p name T e hBranch h => ?_⟩
  unfold assignOne at h
  rcases hBranch with ⟨v, hBranch⟩ | hBranch <;> rw [hBranch] at h
  · exact (keepsPaths_calls hReg n).validate _ _ _ _ (except_map_eq_error.mp h)
  · exact (keepsPaths_calls hReg n).validate _ _ _ _ (except_map_eq_error.mp h)

/-- The schema of a required `port: int`. -/
def portSchema : SchemaClass := ⟨"PortSchema", [("port", .int)], [], none, by decide⟩

/-- `_port` rejects every source with a `ValueError`. -/
def checkedPortSchema : SchemaClass :=
  ⟨"CheckedPortSchema", [("port", .int)],
    [("_port", .method 1 fun _ => .error (.value [.str "port out of range"]))], none, by decide⟩

/-- A listener whose `listen` field is a nested `PortSchema`. -/
def listenPortSchema : SchemaClass :=
  ⟨"ListenPort", [("listen", .schema "PortSchema")], [], none, by decide⟩

/-- The registry declaring `PortSchema`; its custom types raise only `NameError`. -/
def portRegistry : Registry :=
  { Registry.empty with schema? := fun n => if n = "PortSchema" then some portSchema else none }

/-- From `{"listen": {}}`, the nested schema's missing `port` is reported at `/listen`: within the
outer construction's path `""`, and within the path of the field whose value it validates. -/
theorem nested_missing_port_paths :
    PathsRespected portRegistry ∧ MethodsQuiet listenPortSchema ∧
      schemaNode portRegistry 3 listenPortSchema (.dict [(.str "listen", .dict [])]) "" =
        .error (.schema "Missing attribute 'port'." "/listen") ∧
      PathWithin "" (.schema "Missing attribute 'port'." "/listen") ∧
      PathWithin ("" ++ "/" ++ "listen") (.schema "Missing attribute 'port'." "/listen") := by
  have hReg : PathsRespected portRegistry := by
    refine ⟨fun _ _ _ _ h => by cases h; trivial, fun n S h => ?_⟩
    simp only [portRegistry] at h
    split at h <;> cases h
    intro _ _ _ hMem
    cases hMem
  have hQuiet : MethodsQuiet listenPortSchema := fun _ _ _ hMem => by cases hMem
  have h : schemaNode portRegistry 3 listenPortSchema (.dict [(.str "listen", .dict [])]) "" =
      .error (.schema "Missing attribute 'port'." "/listen") := rfl
  have hOne : assignOne portRegistry (calls portRegistry 2) listenPortSchema []
      (.dict [(.str "listen", .dict [])]) (.dict [(.str "listen", .dict [])]) "" "listen"
      (.schema "PortSchema") = .error (.schema "Missing attribute 'port'." "/listen") := rfl
  exact ⟨hReg, hQuiet, h, (error_paths_extend hReg).2.1 3 _ _ _ _ hQuiet h,
    (error_paths_extend hReg).2.2 2 listenPortSchema [] (.dict [(.str "listen", .dict [])])
      (.dict [(.str "listen", .dict [])]) "" "listen" _ _ (.inl ⟨.dict [], rfl⟩) hOne⟩

/-- From `{}`, the missing `port` is reported at the schema's path `""`, not at `/port`; and a
transformation's `ValueError` is reported at the schema's path too. -/
theorem field_errors_at_schema_path :
    schemaNode Registry.empty 1 portSchema (.dict []) "" =
      .error (.schema "Missing attribute 'port'." "") ∧
    schemaNode Registry.empty 1 checkedPortSchema (.dict []) "" =
      .error (.schema "port out of range" "") :=
  ⟨rfl, rfl⟩

end KnotSchema
