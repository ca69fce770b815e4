import KnotSchema.Schema.Steps

/-! The fuel of the model stands for Python's recursion limit, and only cuts runs off: a run
that finishes at some fuel gives the same outcome at every larger fuel. No branch of
`_validated_object_type` or of the construction protocol catches the cut-off, so once a run
has finished, every call it made had finished too, and more fuel changes none of them. -/
namespace KnotSchema

/-- `b` agrees with `a` wherever `a` finished. -/
def Settled {α : Type} (a b : Except PyErr α) : Prop :=
  a ≠ .error .outOfFuel → b = a

section Settled

variable {α β : Type}

theorem Settled.refl (a : Except PyErr α) : Settled a a := fun _ => rfl

theorem Settled.trans {a b d : Except PyErr α} (hab : Settled a b) (hbd : Settled b d) :
    Settled a d := fun ha => (hbd ((hab ha).symm ▸ ha)).trans (hab ha)

theorem Settled.of_cutoff {a b : Except PyErr α} (h : a = .error .outOfFuel) : Settled a b :=
  fun ha => absurd h ha

/-- Either `a` was cut off, or `b` is `a`. -/
theorem Settled.cases {a b : Except PyErr α} (h : Settled a b) :
    a = .error .outOfFuel ∨ b = a := by
  by_cases ha : a = .error .outOfFuel
  · exact .inl ha
  · exact .inr (h ha)

theorem Settled.bind {a b : Except PyErr α} {f f' : α → Except PyErr β} (h : Settled a b)
    (hf : ∀ x, Settled (f x) (f' x)) : Settled (a >>= f) (b >>= f') := by
  rcases h.cases with h | h
  · rw [h]
    exact Settled.of_cutoff rfl
  · rw [h]
    cases a with
    | ok x => exact hf x
    | error e => exact Settled.refl _

theorem Settled.map {a b : Except PyErr α} (f : α → β) (h : Settled a b) :
    Settled (f <$> a) (f <$> b) := by
  rcases h.cases with rfl | rfl
  · exact Settled.of_cutoff rfl
  · exact Settled.refl _

end Settled

/-- The calls `c'` finish as `c` does wherever `c` finishes. -/
structure Extends (c c' : Calls) : Prop where
  validate : ∀ T v p, Settled (c.validate T v p) (c'.validate T v p)
  init : ∀ S x p, Settled (c.init S x p) (c'.init S x p)

section Step

variable {reg : Registry} {c c' : Calls} (hc : Extends c c')
include hc

theorem unionVariants_settled {cls : Descriptor} {obj : PyVal} {path : String} :
    ∀ vs, Settled (unionVariants c cls obj path vs) (unionVariants c' cls obj path vs)
  | [] => Settled.refl _
  | v :: vs => by
      simp only [unionVariants]
      rcases (hc.validate v obj path).cases with h | h
      · rw [h]
        exact Settled.of_cutoff rfl
      · rw [h]
        cases c.validate v obj path with
        | ok x => exact Settled.refl _
        | error e => cases e <;> first | exact unionVariants_settled vs | exact Settled.refl _

theorem validateItems_settled {item : Descriptor} {path : String} :
    ∀ vs, Settled (validateItems c item path vs) (validateItems c' item path vs)
  | [] => Settled.refl _
  | v :: vs =>
      (hc.validate item v path).bind fun _ =>
        (validateItems_settled vs).bind fun _ => Settled.refl _

theorem validatePairs_settled {path : String} :
    ∀ ps, Settled (validatePairs c path ps) (validatePairs c' path ps)
  | [] => Settled.refl _
  | (t, v) :: ps =>
      (hc.validate t v path).bind fun _ =>
        (validatePairs_settled ps).bind fun _ => Settled.refl _

theorem validateEntries_settled {key value : Descriptor} {path : String} :
    ∀ es acc, Settled (validateEntries c key value path acc es)
      (validateEntries c' key value path acc es)
  | [], _ => Settled.refl _
  | (k, v) :: es, acc =>
      (hc.validate key k _).bind fun k' => (hc.validate value v _).bind fun v' => by
        split
        · exact validateEntries_settled es _
        · exact Settled.refl _

theorem validateStep_settled (T : Descriptor) (v : PyVal) (p : String) :
    Settled (validateStep reg c T v p) (validateStep reg c' T v p) := by
  cases T with
  | union vs => exact unionVariants_settled hc vs
  | dict K V =>
      cases v with
      | dict es =>
          simp only [validateStep, validateValue, validateDict]
          rcases (validateEntries_settled hc es []).cases with h | h
          · rw [h]
            exact Settled.of_cutoff rfl
          · rw [h]
            exact Settled.refl _
      | _ => exact Settled.refl _
  | list E =>
      cases hIter : v.iterItems with
      | some items =>
          rw [validateStep_list_of_iter hIter, validateStep_list_of_iter hIter]
          exact (validateItems_settled hc items).map _
      | none => cases v <;> first | exact Settled.refl _ | cases hIter
  | tuple ts =>
      cases hIter : v.iterItems with
      | some items =>
          rw [validateStep_tuple_of_iter hIter, validateStep_tuple_of_iter hIter]
          exact (validatePairs_settled hc _).map _
      | none => cases v <;> first | exact Settled.refl _ | cases hIter
  | schema n =>
      cases v with
      | none => exact Settled.refl _
      | _ =>
          simp only [validateStep, validateValue]
          split
          · exact Settled.refl _
          · split
            · first | exact hc.init _ _ _ | exact Settled.refl _
            · exact Settled.refl _
  | _ => exact Settled.refl _

theorem assignOne_settled (cls : SchemaClass) (attrs : List (String × PyVal))
    (selfSource source : PyVal) (path name : String) (T : Descriptor) :
    Settled (assignOne reg c cls attrs selfSource source path name T)
      (assignOne reg c' cls attrs selfSource source path name T) := by
  unfold assignOne assignDefault
  split
  · exact (hc.validate _ _ _).map _
  · exact Settled.refl _
  · exact (Settled.refl _).bind fun _ => (hc.validate _ _ _).bind fun _ => Settled.refl _
  · exact (hc.validate _ _ _).map _
  · exact Settled.refl _

theorem assignFields_settled (cls : SchemaClass) (selfSource source : PyVal) (path : String) :
    ∀ fs attrs used, Settled (assignFields reg c cls selfSource source path fs attrs used)
      (assignFields reg c' cls selfSource source path fs attrs used)
  | [], _, _ => Settled.refl _
  | (name, T) :: rest, attrs, used => by
      simp only [assignFields]
      split
      · exact assignFields_settled cls selfSource source path rest attrs used
      · rcases (assignOne_settled hc cls attrs selfSource source path name T).cases with h | h
        · rw [h]
          exact Settled.of_cutoff rfl
        · rw [h]
          cases assignOne reg c cls attrs selfSource source path name T with
          | ok vu => exact assignFields_settled cls selfSource source path rest _ _
          | error e => exact Settled.refl _

theorem initStep_settled (S : SchemaClass) (x : PyVal) (p : String) :
    Settled (initStep reg c S x p) (initStep reg c' S x p) := by
  have hPrev : Settled (previousSource reg c S (normalizeSource x) p)
      (previousSource reg c' S (normalizeSource x) p) := by
    unfold previousSource
    split
    · exact Settled.refl _
    · split
      · exact hc.init _ _ _
      · exact Settled.refl _
  exact hPrev.bind fun _ =>
    (assignFields_settled hc S _ _ p _ [] []).bind fun _ => Settled.refl _

/-- The step lemma: one more level of recursion on top keeps the agreement. -/
theorem Extends.step : Extends (c.step reg) (c'.step reg) :=
  ⟨validateStep_settled hc, initStep_settled hc⟩

end Step

/-- The run lemma: the calls at fuel `n + 1` finish as those at `n` do. -/
theorem extends_calls_succ (reg : Registry) : ∀ n, Extends (calls reg n) (calls reg (n + 1))
  | 0 => ⟨fun _ _ _ h => absurd rfl h, fun _ _ _ h => absurd rfl h⟩
  | n + 1 => (extends_calls_succ reg n).step

theorem extends_calls (reg : Registry) {n m : Nat} (h : n ≤ m) :
    Extends (calls reg n) (calls reg m) := by
  induction h with
  | refl => exact ⟨fun _ _ _ => Settled.refl _, fun _ _ _ => Settled.refl _⟩
  | step _ ih =>
      exact ⟨fun T v p => (ih.validate T v p).trans ((extends_calls_succ reg _).validate T v p),
        fun S x p => (ih.init S x p).trans ((extends_calls_succ reg _).init S x p)⟩

/-- A validation that finishes within some recursion depth gives the same outcome with more. -/
theorem validatedObjectType_fuel_mono {reg : Registry} {n m : Nat} (h : n ≤ m) {T : Descriptor}
    {v : PyVal} {p : String} (hFinished : validatedObjectType reg n T v p ≠ .error .outOfFuel) :
    validatedObjectType reg m T v p = validatedObjectType reg n T v p :=
  (extends_calls reg h).validate T v p hFinished

/-- Python's recursion limit only cuts runs off. No `except` clause of the module catches the
`RecursionError` that stands for running out of fuel, so a validation or a construction that
finishes, with a value or with an exception, within some recursion depth gives that same outcome
at every greater depth. -/
theorem deeper_recursion_same_outcome (reg : Registry) {n m : Nat} (h : n ≤ m) :
    (∀ T v p, validatedObjectType reg n T v p ≠ .error .outOfFuel →
      validatedObjectType reg m T v p = validatedObjectType reg n T v p) ∧
    (∀ S x p, schemaNode reg n S x p ≠ .error .outOfFuel →
      schemaNode reg m S x p = schemaNode reg n S x p) :=
  ⟨(extends_calls reg h).validate, (extends_calls reg h).init⟩

/-- `List[int]` on `[1]` finishes at depth 3, and so gives the same list at depth 10. -/
theorem int_list_same_at_depth_ten :
    validatedObjectType Registry.empty 10 (.list .int) (.list [.int 1]) "" =
      validatedObjectType Registry.empty 3 (.list .int) (.list [.int 1]) "" :=
  (deeper_recursion_same_outcome Registry.empty (by decide : 3 ≤ 10)).1 _ _ _
    fun h => nomatch (show validatedObjectType Registry.empty 3 (.list .int) (.list [.int 1]) "" =
      .ok (.list [.int 1]) from rfl).symm.trans h

end KnotSchema
