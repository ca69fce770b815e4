import Mathlib.Data.List.Forall2
import KnotSchema.Schema.Validate

/-! What each step of the validator returns, stated once in terms of the calls it makes, so
that later proofs cite these lemmas instead of unfolding the step functions. -/
namespace KnotSchema

section ExceptLemmas

variable {ε α β : Type}

theorem except_bind_eq_ok {x : Except ε α} {f : α → Except ε β} {b : β} :
    x >>= f = .ok b ↔ ∃ a, x = .ok a ∧ f a = .ok b := by
  cases x <;> simp [bind, Except.bind]

theorem except_bind_eq_error {x : Except ε α} {f : α → Except ε β} {e : ε} :
    x >>= f = .error e ↔ x = .error e ∨ ∃ a, x = .ok a ∧ f a = .error e := by
  cases x <;> simp [bind, Except.bind]

theorem except_map_eq_error {x : Except ε α} {f : α → β} {e : ε} :
    f <$> x = .error e ↔ x = .error e := by
  cases x <;> simp [Functor.map, Except.map]

theorem except_map_eq_ok {x : Except ε α} {f : α → β} {b : β} :
    f <$> x = .ok b ↔ ∃ a, x = .ok a ∧ f a = b := by
  cases x <;> simp [Functor.map, Except.map]

theorem except_map_pair_eq_ok {x : Except ε α} {b b' : β} {a : α} :
    (fun r => (r, b)) <$> x = .ok (a, b') ↔ x = .ok a ∧ b = b' := by
  cases x <;> simp [Functor.map, Except.map, and_comm]

end ExceptLemmas

/-- Every right-hand item of related lists is related to a left-hand one. -/
theorem forall₂_exists_of_mem_right {α β : Type} {R : α → β → Prop} :
    ∀ {l₁ : List α} {l₂ : List β}, List.Forall₂ R l₁ l₂ → ∀ b ∈ l₂, ∃ a ∈ l₁, R a b
  | _, _, .nil, _, hb => by cases hb
  | _, _, .cons hab hRest, b, hb => by
      rcases List.mem_cons.mp hb with rfl | hb
      · exact ⟨_, List.mem_cons_self _ _, hab⟩
      · obtain ⟨a, ha, h⟩ := forall₂_exists_of_mem_right hRest b hb
        exact ⟨a, List.mem_cons_of_mem _ ha, h⟩

/-- A list each item of which has a related item has a related list. -/
theorem exists_forall₂_of_forall {α β : Type} {R : α → β → Prop} :
    ∀ {l : List α}, (∀ a ∈ l, ∃ b, R a b) → ∃ l', List.Forall₂ R l l'
  | [], _ => ⟨[], .nil⟩
  | a :: l, h => by
      obtain ⟨b, hb⟩ := h a (List.mem_cons_self a l)
      obtain ⟨l', hl'⟩ := exists_forall₂_of_forall fun x hx => h x (List.mem_cons_of_mem a hx)
      exact ⟨b :: l', .cons hb hl'⟩

variable {reg : Registry} {c : Calls}

@[simp] theorem calls_zero_validate (reg : Registry) (T : Descriptor) (v : PyVal) (p : String) :
    (calls reg 0).validate T v p = .error .outOfFuel := rfl

@[simp] theorem calls_zero_init (reg : Registry) (S : SchemaClass) (v : PyVal) (p : String) :
    (calls reg 0).init S v p = .error .outOfFuel := rfl

@[simp] theorem calls_succ_validate (reg : Registry) (n : Nat) :
    (calls reg (n + 1)).validate = validateStep reg (calls reg n) := rfl

@[simp] theorem calls_succ_init (reg : Registry) (n : Nat) :
    (calls reg (n + 1)).init = initStep reg (calls reg n) := rfl

/-- A list comprehension succeeds exactly when every item does, item by item. -/
theorem validateItems_eq_ok {item : Descriptor} {path : String} :
    ∀ {vs rs : List PyVal}, validateItems c item path vs = .ok rs ↔
      List.Forall₂ (fun v r => c.validate item v path = .ok r) vs rs
  | [], rs => by cases rs <;> simp [validateItems]
  | v :: vs, rs => by
      cases rs <;> simp [validateItems, except_bind_eq_ok, validateItems_eq_ok, pure, Except.pure]

/-- The tuple comprehension succeeds exactly when every zipped pair does. -/
theorem validatePairs_eq_ok {path : String} :
    ∀ {ps : List (Descriptor × PyVal)} {rs : List PyVal}, validatePairs c path ps = .ok rs ↔
      List.Forall₂ (fun p r => c.validate p.1 p.2 path = .ok r) ps rs
  | [], rs => by cases rs <;> simp [validatePairs]
  | (t, v) :: ps, rs => by
      cases rs <;> simp [validatePairs, except_bind_eq_ok, validatePairs_eq_ok, pure, Except.pure]

/-- A union returns what one of its variants returned. -/
theorem unionVariants_eq_ok {cls : Descriptor} {obj : PyVal} {path : String} {r : PyVal} :
    ∀ {vs : List Descriptor}, unionVariants c cls obj path vs = .ok r →
      ∃ w ∈ vs, c.validate w obj path = .ok r
  | [], h => by cases h
  | v :: vs, h => by
      simp only [unionVariants] at h
      split at h
      · obtain ⟨w, hw, hr⟩ := unionVariants_eq_ok h
        exact ⟨w, List.mem_cons_of_mem v hw, hr⟩
      · exact ⟨v, List.mem_cons_self v vs, h⟩

/-- A union fails with a variant's exception, or with its own once every variant failed. -/
theorem unionVariants_eq_error {cls : Descriptor} {obj : PyVal} {path : String} {e : PyErr} :
    ∀ {vs : List Descriptor}, unionVariants c cls obj path vs = .error e →
      (∃ w ∈ vs, c.validate w obj path = .error e) ∨ ∃ msg, e = .schema msg path
  | [], h => by cases h; exact .inr ⟨_, rfl⟩
  | v :: vs, h => by
      simp only [unionVariants] at h
      split at h
      · exact (unionVariants_eq_error h).imp_left fun ⟨w, hw, he⟩ =>
          ⟨w, List.mem_cons_of_mem v hw, he⟩
      · exact .inl ⟨v, List.mem_cons_self v vs, h⟩

/-- A list comprehension fails with the exception of one of its items. -/
theorem validateItems_eq_error {item : Descriptor} {path : String} {e : PyErr} :
    ∀ {vs : List PyVal}, validateItems c item path vs = .error e →
      ∃ v ∈ vs, c.validate item v path = .error e
  | [], h => by cases h
  | v :: vs, h => by
      simp only [validateItems, except_bind_eq_error] at h
      rcases h with hv | ⟨r, -, hs | ⟨rs, -, h⟩⟩
      · exact ⟨v, List.mem_cons_self v vs, hv⟩
      · obtain ⟨w, hw, he⟩ := validateItems_eq_error hs
        exact ⟨w, List.mem_cons_of_mem v hw, he⟩
      · cases h

/-- The tuple comprehension fails with the exception of one of its pairs. -/
theorem validatePairs_eq_error {path : String} {e : PyErr} :
    ∀ {ps : List (Descriptor × PyVal)}, validatePairs c path ps = .error e →
      ∃ p ∈ ps, c.validate p.1 p.2 path = .error e
  | [], h => by cases h
  | (t, v) :: ps, h => by
      simp only [validatePairs, except_bind_eq_error] at h
      rcases h with hv | ⟨r, -, hs | ⟨rs, -, h⟩⟩
      · exact ⟨(t, v), List.mem_cons_self _ ps, hv⟩
      · obtain ⟨q, hq, he⟩ := validatePairs_eq_error hs
        exact ⟨q, List.mem_cons_of_mem _ hq, he⟩
      · cases h

/-- The dict comprehension fails with the exception of an entry's key or value, or with the
`TypeError` of an unhashable key. -/
theorem validateEntries_eq_error {key value : Descriptor} {path : String} {e : PyErr} :
    ∀ {es acc : List (PyVal × PyVal)}, validateEntries c key value path acc es = .error e →
      (∃ kv ∈ es, c.validate key kv.1 (path ++ " @ key " ++ kv.1.toStr) = .error e ∨
        c.validate value kv.2 (path ++ " @ value for key " ++ kv.1.toStr) = .error e) ∨
      ∃ msg, e = .type msg
  | [], acc, h => by cases h
  | (k, v) :: es, acc, h => by
      simp only [validateEntries, except_bind_eq_error] at h
      rcases h with hk | ⟨k', -, hv | ⟨v', -, h⟩⟩
      · exact .inl ⟨(k, v), List.mem_cons_self _ es, .inl hk⟩
      · exact .inl ⟨(k, v), List.mem_cons_self _ es, .inr hv⟩
      · split at h
        · exact (validateEntries_eq_error h).imp_left fun ⟨kv, hkv, he⟩ =>
            ⟨kv, List.mem_cons_of_mem _ hkv, he⟩
        · cases h
          exact .inr ⟨_, rfl⟩

/-- Validating `None` returns `None` or fails, against every descriptor: only `NoneType`
accepts it, and a union passes on what a variant returned. -/
theorem calls_validate_none {reg : Registry} :
    ∀ {n : Nat} {T : Descriptor} {path : String} {v : PyVal},
      (calls reg n).validate T .none path = .ok v → v = .none
  | 0, _, _, _, h => by simp at h
  | n + 1, T, path, v, h => by
      simp only [calls_succ_validate, validateStep] at h
      split at h
      · cases h
        rfl
      · obtain ⟨w, -, hw⟩ := unionVariants_eq_ok h
        exact calls_validate_none hw
      · cases h

/-- The validated pair of one source entry: its key and value validated at the entry's paths,
the key hashable. -/
def EntryValidated (c : Calls) (key value : Descriptor) (path : String) (e q : PyVal × PyVal) :
    Prop :=
  c.validate key e.1 (path ++ " @ key " ++ e.1.toStr) = .ok q.1 ∧
    c.validate value e.2 (path ++ " @ value for key " ++ e.1.toStr) = .ok q.2 ∧
    q.1.hashable = true

/-- The dict comprehension succeeds exactly when every entry validates to a hashable pair; the
dict is then those pairs inserted in order. -/
theorem validateEntries_eq_ok {key value : Descriptor} {path : String} :
    ∀ {es acc d : List (PyVal × PyVal)}, validateEntries c key value path acc es = .ok d ↔
      ∃ ps, List.Forall₂ (EntryValidated c key value path) es ps ∧ d = dictOfPairs acc ps
  | [], acc, d => by simp [validateEntries, dictOfPairs, eq_comm, List.forall₂_nil_left_iff]
  | (k, v) :: es, acc, d => by
      simp only [validateEntries, except_bind_eq_ok]
      constructor
      · rintro ⟨k', hk, v', hv, h⟩
        split at h
        · obtain ⟨ps, hps, rfl⟩ := validateEntries_eq_ok.mp h
          exact ⟨(k', v') :: ps, List.Forall₂.cons ⟨hk, hv, ‹_›⟩ hps, rfl⟩
        · cases h
      · rintro ⟨_ | ⟨q, ps⟩, hps, rfl⟩
        · cases hps
        · obtain ⟨⟨hk, hv, hHash⟩, hps⟩ := List.forall₂_cons.mp hps
          refine ⟨q.1, hk, q.2, hv, ?_⟩
          simp only [hHash, if_true]
          exact validateEntries_eq_ok.mpr ⟨ps, hps, rfl⟩

/-- `used_keys` only ever gains names of non-internal fields the loop walks over: a property
of all those names holds of every used key. -/
theorem assignFields_used {cls : SchemaClass} {selfSource source : PyVal} {path : String}
    (P : String → Prop) {fs : List (String × Descriptor)}
    (hFields : ∀ f ∈ fs, isInternalFieldName f.1 = false → P f.1) :
    ∀ {attrs attrs' : List (String × PyVal)} {used used' : List String}, (∀ u ∈ used, P u) →
      assignFields reg c cls selfSource source path fs attrs used = .ok (attrs', used') →
      ∀ u ∈ used', P u := by
  induction fs with
  | nil =>
      intro attrs attrs' used used' hUsed h
      simp only [assignFields, Except.ok.injEq, Prod.mk.injEq] at h
      exact h.2 ▸ hUsed
  | cons f rest ih =>
      intro attrs attrs' used used' hUsed h
      have hRest := fun g hg => hFields g (List.mem_cons_of_mem f hg)
      simp only [assignFields] at h
      split at h
      · exact ih hRest hUsed h
      · rename_i hNotInternal
        split at h
        · refine ih hRest ?_ h
          have hName := hFields f (List.mem_cons_self _ _) (by simpa using hNotInternal)
          split
          · simpa [or_imp, forall_and] using And.intro hUsed hName
          · exact hUsed
        · cases h

/-- Pairs related name by name carry the same names. -/
theorem forall₂_map_fst {α β γ : Type} {P : α × β → α × γ → Prop} :
    ∀ {l₁ : List (α × β)} {l₂ : List (α × γ)},
      List.Forall₂ (fun f a => a.1 = f.1 ∧ P f a) l₁ l₂ → l₂.map Prod.fst = l₁.map Prod.fst
  | _, _, .nil => rfl
  | _, _, .cons h hs => by simp [h.1, forall₂_map_fst hs]

/-- The field loop appends, for each non-internal annotation in order, the field's name and a
value `assignOne` returned for that field. -/
theorem assignFields_forall₂ {cls : SchemaClass} {selfSource source : PyVal} {path : String} :
    ∀ {fs : List (String × Descriptor)} {attrs attrs' : List (String × PyVal)}
      {used used' : List String},
      assignFields reg c cls selfSource source path fs attrs used = .ok (attrs', used') →
      ∃ rs, attrs' = attrs ++ rs ∧ List.Forall₂ (fun f a => a.1 = f.1 ∧
        ∃ as u, assignOne reg c cls as selfSource source path f.1 f.2 = .ok (a.2, u))
        (fs.filter fun f => !isInternalFieldName f.1) rs
  | [], attrs, attrs', used, used', h => by
      simp only [assignFields, Except.ok.injEq, Prod.mk.injEq] at h
      exact ⟨[], by simp [h.1], .nil⟩
  | f :: rest, attrs, attrs', used, used', h => by
      simp only [assignFields] at h
      split at h
      · rename_i hInternal
        obtain ⟨rs, rfl, hrs⟩ := assignFields_forall₂ h
        rw [List.filter_cons_of_neg (by simpa using hInternal)]
        exact ⟨rs, rfl, hrs⟩
      · rename_i hInternal
        split at h
        · rename_i v u hOne
          obtain ⟨rs, rfl, hrs⟩ := assignFields_forall₂ h
          rw [List.filter_cons_of_pos (by simpa using hInternal)]
          exact ⟨(f.1, v) :: rs, by simp, .cons ⟨rfl, attrs, u, hOne⟩ hrs⟩
        · cases h

/-- The field loop appends one assigned field per non-internal annotation, in order. -/
theorem assignFields_attrs {cls : SchemaClass} {selfSource source : PyVal} {path : String}
    {fs : List (String × Descriptor)} {attrs attrs' : List (String × PyVal)}
    {used used' : List String}
    (h : assignFields reg c cls selfSource source path fs attrs used = .ok (attrs', used')) :
    ∃ rs, attrs' = attrs ++ rs ∧
      rs.map Prod.fst = (fs.filter fun f => !isInternalFieldName f.1).map Prod.fst := by
  obtain ⟨rs, rfl, hrs⟩ := assignFields_forall₂ h
  exact ⟨rs, rfl, forall₂_map_fst hrs⟩

/-- The field loop over `pre ++ rest` runs over `pre`, then over `rest` from where it stopped. -/
theorem assignFields_append {cls : SchemaClass} {selfSource source : PyVal} {path : String}
    (pre rest : List (String × Descriptor)) :
    ∀ (attrs : List (String × PyVal)) (used : List String),
      assignFields reg c cls selfSource source path (pre ++ rest) attrs used =
        assignFields reg c cls selfSource source path pre attrs used >>= fun r =>
          assignFields reg c cls selfSource source path rest r.1 r.2 := by
  induction pre with
  | nil => intro attrs used; rfl
  | cons f pre ih =>
      intro attrs used
      simp only [List.cons_append, assignFields]
      split
      · exact ih attrs used
      · cases assignOne reg c cls attrs selfSource source path f.1 f.2 with
        | error e => rfl
        | ok r => exact ih _ _

/-- Validating a map against `Dict[K, V]` returns the dict its comprehension built. -/
theorem validateStep_dict_eq_ok {key value : Descriptor} {es : List (PyVal × PyVal)}
    {path : String} {r : PyVal} :
    validateStep reg c (.dict key value) (.dict es) path = .ok r ↔
      ∃ d, validateEntries c key value path [] es = .ok d ∧ r = .dict d := by
  simp only [validateStep, validateValue, validateDict]
  cases validateEntries c key value path [] es with
  | ok d => simp [eq_comm]
  | error e => cases e <;> simp

/-- `Dict[K, V]` returns only on a map. -/
theorem validateStep_dict_of_ok {key value : Descriptor} {v : PyVal} {path : String} {r : PyVal}
    (h : validateStep reg c (.dict key value) v path = .ok r) :
    ∃ es d, v = .dict es ∧ validateEntries c key value path [] es = .ok d ∧ r = .dict d := by
  cases v with
  | dict es =>
      obtain ⟨d, hd, rfl⟩ := validateStep_dict_eq_ok.mp h
      exact ⟨es, d, rfl, hd, rfl⟩
  | _ => simp [validateStep, validateValue, validateDict] at h

/-- Validating an iterable against `List[E]` validates its items at `path[]`. -/
theorem validateStep_list_of_iter {E : Descriptor} {v : PyVal} {items : List PyVal}
    {path : String} (h : v.iterItems = some items) :
    validateStep reg c (.list E) v path = .list <$> validateItems c E (path ++ "[]") items := by
  cases v <;> simp_all [validateStep, validateValue, validateList, PyVal.iterItems]

/-- Validating an iterable against `Tuple[...]` validates the pairs `zip` forms. -/
theorem validateStep_tuple_of_iter {ts : List Descriptor} {v : PyVal} {items : List PyVal}
    {path : String} (h : v.iterItems = some items) :
    validateStep reg c (.tuple ts) v path = .tuple <$> validatePairs c path (ts.zip items) := by
  cases v <;> simp_all [validateStep, validateValue, validateTuple, PyVal.iterItems]

/-- `List[E]` returns only on an iterable. -/
theorem validateStep_list_eq_ok {E : Descriptor} {v : PyVal} {path : String} {r : PyVal}
    (h : validateStep reg c (.list E) v path = .ok r) :
    ∃ items rs, v.iterItems = some items ∧ validateItems c E (path ++ "[]") items = .ok rs ∧
      r = .list rs := by
  cases hIter : v.iterItems with
  | none =>
      cases v <;> simp_all [validateStep, validateValue, validateList, PyVal.iterItems]
  | some items =>
      rw [validateStep_list_of_iter hIter, except_map_eq_ok] at h
      obtain ⟨rs, hrs, rfl⟩ := h
      exact ⟨items, rs, rfl, hrs, rfl⟩

/-- `Tuple[...]` returns on an iterable, or on a schema instance when it pairs no item. -/
theorem validateStep_tuple_eq_ok {ts : List Descriptor} {v : PyVal} {path : String} {r : PyVal}
    (h : validateStep reg c (.tuple ts) v path = .ok r) :
    (∃ items rs, v.iterItems = some items ∧ validatePairs c path (ts.zip items) = .ok rs ∧
      r = .tuple rs) ∨ ((∃ cls attrs src, v = .node cls attrs src) ∧ r = .tuple []) := by
  cases hIter : v.iterItems with
  | none =>
      cases v <;> simp_all [validateStep, validateValue, validateTuple, PyVal.iterItems]
      split_ifs at h
      exact (Except.ok.inj h).symm
  | some items =>
      rw [validateStep_tuple_of_iter hIter, except_map_eq_ok] at h
      obtain ⟨rs, hrs, rfl⟩ := h
      exact .inl ⟨items, rs, rfl, hrs, rfl⟩

/-- A field loop that returns has reached every non-internal field: the fields before it were
assigned first, then the field itself, and its value stands right after theirs. -/
theorem assignFields_reaches {cls : SchemaClass} {selfSource source : PyVal} {path name : String}
    {T : Descriptor} {pre post : List (String × Descriptor)} {attrs₀ attrs' : List (String × PyVal)}
    {used₀ used' : List String} (hInternal : isInternalFieldName name = false)
    (h : assignFields reg c cls selfSource source path (pre ++ (name, T) :: post) attrs₀ used₀ =
      .ok (attrs', used')) :
    ∃ attrs used v u rest,
      assignFields reg c cls selfSource source path pre attrs₀ used₀ = .ok (attrs, used) ∧
      assignOne reg c cls attrs selfSource source path name T = .ok (v, u) ∧
      attrs' = attrs ++ (name, v) :: rest := by
  rw [assignFields_append] at h
  obtain ⟨⟨attrs, used⟩, hPre, h⟩ := except_bind_eq_ok.mp h
  simp only [assignFields, hInternal, Bool.false_eq_true, if_false] at h
  split at h
  · rename_i v u hOne
    obtain ⟨rest, rfl, -⟩ := assignFields_attrs h
    exact ⟨attrs, used, v, u, rest, hPre, hOne, by simp⟩
  · cases h

/-- Every field the loop adds is a non-internal field it walked over. -/
theorem assignFields_keys {cls : SchemaClass} {selfSource source : PyVal} {path : String}
    {fs : List (String × Descriptor)} {attrs attrs' : List (String × PyVal)}
    {used used' : List String}
    (h : assignFields reg c cls selfSource source path fs attrs used = .ok (attrs', used')) :
    ∀ p ∈ attrs', p ∈ attrs ∨ (p.1 ∈ fs.map Prod.fst ∧ isInternalFieldName p.1 = false) := by
  obtain ⟨rs, rfl, hrs⟩ := assignFields_attrs h
  intro p hp
  refine (List.mem_append.mp hp).imp_right fun hp => ?_
  have hKey : p.1 ∈ (fs.filter fun f => !isInternalFieldName f.1).map Prod.fst :=
    hrs ▸ List.mem_map_of_mem Prod.fst hp
  obtain ⟨f, hf, hEq⟩ := List.mem_map.mp hKey
  obtain ⟨hMem, hInt⟩ := List.mem_filter.mp hf
  exact ⟨hEq ▸ List.mem_map_of_mem Prod.fst hMem, by simpa [hEq] using hInt⟩

/-- A field loop fails with the exception of one of its non-internal fields. -/
theorem assignFields_eq_error {cls : SchemaClass} {selfSource source : PyVal} {path : String}
    {e : PyErr} : ∀ {fs : List (String × Descriptor)} {attrs : List (String × PyVal)}
      {used : List String},
      assignFields reg c cls selfSource source path fs attrs used = .error e →
      ∃ f ∈ fs, isInternalFieldName f.1 = false ∧
        ∃ attrs', assignOne reg c cls attrs' selfSource source path f.1 f.2 = .error e
  | [], _, _, h => by cases h
  | (name, T) :: rest, attrs, used, h => by
      simp only [assignFields] at h
      split at h
      · obtain ⟨g, hg, hInt, a, ha⟩ := assignFields_eq_error h
        exact ⟨g, List.mem_cons_of_mem _ hg, hInt, a, ha⟩
      · rename_i hInternal
        split at h
        · obtain ⟨g, hg, hInt, a, ha⟩ := assignFields_eq_error h
          exact ⟨g, List.mem_cons_of_mem _ hg, hInt, a, ha⟩
        · rename_i e' hOne
          cases h
          exact ⟨(name, T), List.mem_cons_self _ rest, by simpa using hInternal, attrs, hOne⟩

/-- Every field the loop adds holds a value `assignOne` returned for a non-internal field. -/
theorem assignFields_values {cls : SchemaClass} {selfSource source : PyVal} {path : String} :
    ∀ {fs : List (String × Descriptor)} {attrs attrs' : List (String × PyVal)}
      {used used' : List String},
      assignFields reg c cls selfSource source path fs attrs used = .ok (attrs', used') →
      ∀ a ∈ attrs', a ∈ attrs ∨ ∃ f ∈ fs, isInternalFieldName f.1 = false ∧
        ∃ as u, assignOne reg c cls as selfSource source path f.1 f.2 = .ok (a.2, u)
  | [], attrs, attrs', used, used', h => by
      simp only [assignFields, Except.ok.injEq, Prod.mk.injEq] at h
      exact fun a ha => .inl (h.1 ▸ ha)
  | (name, T) :: rest, attrs, attrs', used, used', h => by
      simp only [assignFields] at h
      split at h
      · exact fun a ha => (assignFields_values h a ha).imp_right fun ⟨f, hf, hInt, as, u, hOne⟩ =>
          ⟨f, List.mem_cons_of_mem _ hf, hInt, as, u, hOne⟩
      · rename_i hInternal
        split at h
        · rename_i v u hOne
          intro a ha
          rcases assignFields_values h a ha with ha | ⟨f, hf, hInt, as, u', hOne'⟩
          · rcases List.mem_append.mp ha with ha | ha
            · exact .inl ha
            · obtain rfl := List.mem_singleton.mp ha
              exact .inr ⟨(name, T), List.mem_cons_self _ _, by simpa using hInternal, attrs, u,
                hOne⟩
          · exact .inr ⟨f, List.mem_cons_of_mem _ hf, hInt, as, u', hOne'⟩
        · cases h

/-- A name the author's namespace defines is an attribute of every instance. -/
theorem hasAttr_of_lookup {cls : SchemaClass} {attrs : List (String × PyVal)} {src : PyVal}
    {name : String} (h : (cls.attrs.lookup name).isSome) : cls.hasAttr attrs src name = true := by
  simp only [SchemaClass.hasAttr, SchemaClass.instanceAttr, SchemaClass.classAttr]
  split
  · rfl
  · split
    · simp
    · split
      · simp_all
      · obtain ⟨a, ha⟩ := Option.isSome_iff_exists.mp h
        simp [ha]

theorem mem_of_lookup_eq_some {l : List (String × PyVal)} {k : String} {b : PyVal}
    (h : l.lookup k = some b) : (k, b) ∈ l := by
  obtain ⟨l₁, l₂, rfl, -⟩ := List.lookup_eq_some_iff.mp h
  simp

/-- The branch that takes a field from the source found it there. -/
theorem sourceGet_of_fieldBranch {cls : SchemaClass} {attrs : List (String × PyVal)}
    {selfSource source v : PyVal} {name : String} {T : Descriptor}
    (h : fieldBranch reg cls attrs selfSource source name T = .direct v) :
    sourceGet reg source name = some v := by
  unfold fieldBranch at h
  cases hG : sourceGet reg source name <;> simp only [hG] at h <;> split at h <;>
    (try split_ifs at h) <;> cases h
  rfl

theorem normalizeSource_ne_none (source : PyVal) : normalizeSource source ≠ .none := by
  cases source <;> simp [normalizeSource]

/-- A construction that returns has built the previous schema's instance (if any), assigned
every field, passed the unused-keys check and `_validate`, and returns the instance holding the
fields and the normalised source. -/
theorem initStep_eq_ok {cls : SchemaClass} {source : PyVal} {path : String} {inst : PyVal}
    (h : initStep reg c cls source path = .ok inst) :
    ∃ effective attrs used,
      previousSource reg c cls (normalizeSource source) path = .ok effective ∧
      assignFields reg c cls (normalizeSource source) effective path cls.annotations [] [] =
        .ok (attrs, used) ∧
      checkUnused effective used path = .ok () ∧
      callValidate cls (.node cls.name attrs (normalizeSource source)) path = .ok () ∧
      inst = .node cls.name attrs (normalizeSource source) := by
  simp only [initStep, except_bind_eq_ok] at h
  obtain ⟨effective, hPrev, ⟨attrs, used⟩, hFields, u, hCheck, u', hValidate, hInst⟩ := h
  cases hInst
  exact ⟨effective, attrs, used, hPrev, hFields, hCheck, hValidate, rfl⟩

/-- A construction that fails has failed building the previous schema's instance, assigning
a field, in the unused-keys check, or in `_validate`. -/
theorem initStep_eq_error {cls : SchemaClass} {source : PyVal} {path : String} {e : PyErr}
    (h : initStep reg c cls source path = .error e) :
    previousSource reg c cls (normalizeSource source) path = .error e ∨
    ∃ effective, previousSource reg c cls (normalizeSource source) path = .ok effective ∧
      (assignFields reg c cls (normalizeSource source) effective path cls.annotations [] [] =
          .error e ∨
        ∃ attrs used,
          checkUnused effective used path = .error e ∨
            callValidate cls (.node cls.name attrs (normalizeSource source)) path = .error e) := by
  simp only [initStep, except_bind_eq_error] at h
  rcases h with h | ⟨effective, hPrev, h | ⟨⟨attrs, used⟩, -, h⟩⟩
  · exact .inl h
  · exact .inr ⟨effective, hPrev, .inl h⟩
  · simp only [except_bind_eq_error] at h
    rcases h with h | ⟨u, -, h | ⟨u', -, h⟩⟩
    · exact .inr ⟨effective, hPrev, .inr ⟨attrs, used, .inl h⟩⟩
    · exact .inr ⟨effective, hPrev, .inr ⟨attrs, used, .inr h⟩⟩
    · cases h

/-- A construction that returns gives an instance of the class. -/
theorem calls_init_eq_ok {n : Nat} {cls : SchemaClass} {source : PyVal} {path : String}
    {inst : PyVal} (h : (calls reg n).init cls source path = .ok inst) :
    ∃ attrs src, inst = .node cls.name attrs src := by
  cases n with
  | zero => simp at h
  | succ n =>
      obtain ⟨-, attrs, -, -, -, -, -, rfl⟩ := initStep_eq_ok h
      exact ⟨attrs, _, rfl⟩

/-- The fields are never assigned from `None`: the source is normalised, or an instance. -/
theorem previousSource_ne_none {n : Nat} {cls : SchemaClass} {source effective : PyVal}
    {path : String}
    (h : previousSource reg (calls reg n) cls (normalizeSource source) path = .ok effective) :
    effective ≠ .none := by
  simp only [previousSource] at h
  split at h
  · cases h
    exact normalizeSource_ne_none source
  · split at h
    · obtain ⟨a, s, rfl⟩ := calls_init_eq_ok h
      simp
    · cases h

end KnotSchema
