import KnotSchema.Python.Value

/-! Python dicts as the validator's dict comprehension builds them: one insertion per source
entry, a key equal to one already present overwriting its value in place. -/
namespace KnotSchema

/-- `d[key] = value` for a hashable `key`: an equal key already present keeps its place and
takes the new value; a new key goes last. -/
def dictSet : List (PyVal × PyVal) → PyVal → PyVal → List (PyVal × PyVal)
  | [], k, v => [(k, v)]
  | (k', v') :: rest, k, v => if k'.pyEq k then (k', v) :: rest else (k', v') :: dictSet rest k v

/-- Inserting `pairs` into `acc` in order, as `{k: v for k, v in pairs}` does from `{}`. -/
def dictOfPairs (acc pairs : List (PyVal × PyVal)) : List (PyVal × PyVal) :=
  pairs.foldl (fun d p => dictSet d p.1 p.2) acc

/-- No key equals a later one: the shape of every dict insertion builds. -/
def KeysDistinct (d : List (PyVal × PyVal)) : Prop :=
  d.Pairwise fun a b => a.1.pyEq b.1 = false

/-- A key equal to none present is appended. -/
theorem dictSet_of_fresh {d : List (PyVal × PyVal)} {k v : PyVal}
    (hFresh : ∀ e ∈ d, e.1.pyEq k = false) : dictSet d k v = d ++ [(k, v)] := by
  induction d with
  | nil => rfl
  | cons e rest ih =>
      simp only [List.mem_cons, forall_eq_or_imp] at hFresh
      simp [dictSet, hFresh.1, ih hFresh.2]

theorem length_dictSet_le (d : List (PyVal × PyVal)) (k v : PyVal) :
    (dictSet d k v).length ≤ d.length + 1 := by
  induction d with
  | nil => simp [dictSet]
  | cons e rest ih =>
      simp only [dictSet]
      split <;> simp [ih]

/-- Every key after an insertion was there before, or is the inserted one. -/
theorem fst_mem_dictSet {d : List (PyVal × PyVal)} {k v : PyVal} {e : PyVal × PyVal}
    (h : e ∈ dictSet d k v) : e.1 = k ∨ ∃ e' ∈ d, e'.1 = e.1 := by
  induction d with
  | nil => simp_all [dictSet]
  | cons x rest ih =>
      simp only [dictSet] at h
      split at h
      · rcases List.mem_cons.mp h with hx | h
        · exact .inr ⟨x, List.mem_cons_self _ _, by rw [hx]⟩
        · exact .inr ⟨e, List.mem_cons_of_mem _ h, rfl⟩
      · rcases List.mem_cons.mp h with hx | h
        · exact .inr ⟨x, List.mem_cons_self _ _, by rw [hx]⟩
        · rcases ih h with hk | ⟨e', he', hEq⟩
          · exact .inl hk
          · exact .inr ⟨e', List.mem_cons_of_mem _ he', hEq⟩

theorem keysDistinct_dictSet {d : List (PyVal × PyVal)} (k v : PyVal) (h : KeysDistinct d) :
    KeysDistinct (dictSet d k v) := by
  induction d with
  | nil => simp [dictSet, KeysDistinct]
  | cons x rest ih =>
      simp only [KeysDistinct, List.pairwise_cons] at h ⊢
      simp only [dictSet]
      split
      · exact List.pairwise_cons.mpr ⟨h.1, h.2⟩
      · refine List.pairwise_cons.mpr ⟨fun e he => ?_, ih h.2⟩
        rcases fst_mem_dictSet he with hk | ⟨e', he', hEq⟩
        · rw [hk]; simp_all
        · rw [← hEq]; exact h.1 e' he'

theorem keysDistinct_dictOfPairs {acc : List (PyVal × PyVal)} (pairs : List (PyVal × PyVal))
    (h : KeysDistinct acc) : KeysDistinct (dictOfPairs acc pairs) := by
  induction pairs generalizing acc with
  | nil => exact h
  | cons p ps ih => exact ih (keysDistinct_dictSet p.1 p.2 h)

/-- Insertion never adds more than one entry per pair. -/
theorem length_dictOfPairs_le (acc pairs : List (PyVal × PyVal)) :
    (dictOfPairs acc pairs).length ≤ acc.length + pairs.length := by
  induction pairs generalizing acc with
  | nil => simp [dictOfPairs]
  | cons p ps ih =>
      have hSet := length_dictSet_le acc p.1 p.2
      have hRest := ih (dictSet acc p.1 p.2)
      simp only [dictOfPairs, List.foldl_cons, List.length_cons] at hRest ⊢
      omega

/-- A property of keys and one of values that every entry and the inserted pair have holds of
every entry after the insertion: an overwritten entry keeps its key and takes the new value. -/
theorem forall_dictSet {Pk Pv : PyVal → Prop} {d : List (PyVal × PyVal)} {k v : PyVal}
    (hd : ∀ e ∈ d, Pk e.1 ∧ Pv e.2) (hk : Pk k) (hv : Pv v) :
    ∀ e ∈ dictSet d k v, Pk e.1 ∧ Pv e.2 := by
  induction d with
  | nil => simp [dictSet, hk, hv]
  | cons x rest ih =>
      simp only [List.mem_cons, forall_eq_or_imp] at hd
      simp only [dictSet]
      split <;> simp only [List.mem_cons, forall_eq_or_imp]
      · exact ⟨⟨hd.1.1, hv⟩, hd.2⟩
      · exact ⟨hd.1, ih hd.2⟩

theorem forall_dictOfPairs {Pk Pv : PyVal → Prop} {acc pairs : List (PyVal × PyVal)}
    (hAcc : ∀ e ∈ acc, Pk e.1 ∧ Pv e.2) (hPairs : ∀ e ∈ pairs, Pk e.1 ∧ Pv e.2) :
    ∀ e ∈ dictOfPairs acc pairs, Pk e.1 ∧ Pv e.2 := by
  induction pairs generalizing acc with
  | nil => exact hAcc
  | cons q qs ih =>
      simp only [List.mem_cons, forall_eq_or_imp] at hPairs
      exact ih (forall_dictSet hAcc hPairs.1.1 hPairs.1.2) hPairs.2

/-- Pairs whose keys are already distinct are stored as they come. -/
theorem dictOfPairs_of_keysDistinct {acc pairs : List (PyVal × PyVal)}
    (h : KeysDistinct (acc ++ pairs)) : dictOfPairs acc pairs = acc ++ pairs := by
  induction pairs generalizing acc with
  | nil => simp [dictOfPairs]
  | cons p ps ih =>
      have hFresh : ∀ e ∈ acc, e.1.pyEq p.1 = false := fun e he =>
        (List.pairwise_append.mp h).2.2 e he p (List.mem_cons_self _ _)
      have hNext : KeysDistinct ((acc ++ [p]) ++ ps) := by simpa using h
      simp only [dictOfPairs, List.foldl_cons] at ih ⊢
      rw [dictSet_of_fresh hFresh, ih hNext]
      simp

end KnotSchema
