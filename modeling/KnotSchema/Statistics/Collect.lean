import KnotSchema.Statistics.Export
import KnotSchema.Statistics.Json

/-! `collect` over every instance the manager answers for. Each answer is exported under its
instance's label, so with distinct labels the exports do not interfere: every instance whose
answer parses and reports every statistic ends with its own statistics. The loop stops at the
first answer that fails, and the instances after it keep the samples of the previous
collection. Everything here is about the loop, up to `generate_latest()`: what it renders from
the store, and the failures of its `float()`, are not claimed. -/
namespace KnotSchema

section Answers

variable {ι : Type} (label : ι → String) (loads : String → Except StatsError PyVal)
  {ps : List (ι × String)} {s : MetricStore}

/-- An answer `collect` exports completely: it parses, and reports every statistic. -/
def AnswerComplete (p : ι × String) : Prop :=
  ∃ metrics, loads (stripEnds p.2) = .ok metrics ∧
    ∀ l ∈ instanceLines, ∃ v, getItem metrics l.key = .ok v

theorem collectAnswers_cons_of_error {p : ι × String} {e : StatsError}
    (hLoad : loads (stripEnds p.2) = .error e) :
    collectAnswers label loads (p :: ps) s = (s, some e) := by
  obtain ⟨id, raw⟩ := p
  simp only [collectAnswers, hLoad]

theorem collectAnswers_cons_of_none {p : ι × String} {metrics : PyVal}
    (hLoad : loads (stripEnds p.2) = .ok metrics)
    (h : (generateInstanceMetrics (label p.1) metrics s).2 = none) :
    collectAnswers label loads (p :: ps) s =
      collectAnswers label loads ps (generateInstanceMetrics (label p.1) metrics s).1 := by
  obtain ⟨id, raw⟩ := p
  simp only [collectAnswers, hLoad]
  rw [← Prod.eta (generateInstanceMetrics (label id) metrics s), h]

theorem collectAnswers_cons_of_some {p : ι × String} {metrics : PyVal} {e : StatsError}
    (hLoad : loads (stripEnds p.2) = .ok metrics)
    (h : (generateInstanceMetrics (label p.1) metrics s).2 = some e) :
    collectAnswers label loads (p :: ps) s = generateInstanceMetrics (label p.1) metrics s := by
  obtain ⟨id, raw⟩ := p
  simp only [collectAnswers, hLoad]
  rw [← Prod.eta (generateInstanceMetrics (label id) metrics s), h]

/-- A property every export of an answer of `ps` keeps, whatever its outcome, holds after the
loop. -/
theorem collectAnswers_induct (P : MetricStore → Prop)
    (hStep : ∀ p ∈ ps, ∀ metrics s, P s →
      P (generateInstanceMetrics (label p.1) metrics s).1)
    (hs : P s) : P (collectAnswers label loads ps s).1 := by
  induction ps generalizing s with
  | nil => exact hs
  | cons p ps ih =>
      cases hLoad : loads (stripEnds p.2) with
      | error e => rwa [collectAnswers_cons_of_error label loads hLoad]
      | ok metrics =>
          have hp := hStep p (.head _) metrics s hs
          cases h : (generateInstanceMetrics (label p.1) metrics s).2 with
          | none =>
              rw [collectAnswers_cons_of_none label loads hLoad h]
              exact ih (fun q hq => hStep q (.tail _ hq)) hp
          | some e => rwa [collectAnswers_cons_of_some label loads hLoad h]

/-- The loop writes only under the labels of the instances that answered. -/
theorem collectAnswers_children_other {n k : String} (h : ∀ p ∈ ps, k ≠ label p.1) :
    (collectAnswers label loads ps s).1.children n k = s.children n k :=
  collectAnswers_induct label loads (fun s' => s'.children n k = s.children n k)
    (fun p hp _ _ hs' => (runLines_children_other fun _ _ => .inr (h p hp)).trans hs') rfl

theorem collectAnswers_fits (hs : s.Fits moduleMetrics) :
    (collectAnswers label loads ps s).1.Fits moduleMetrics :=
  collectAnswers_induct label loads (fun s' => s'.Fits moduleMetrics)
    (fun _ _ _ _ hs' => runLines_fits hs' moduleMetrics_names_nodup
      fun l hl => (instanceLines_valid l hl).1) hs

/-- A loop whose first part completes goes on from where that part left the store. -/
theorem collectAnswers_append_of_none {rest : List (ι × String)}
    (h : (collectAnswers label loads ps s).2 = none) :
    collectAnswers label loads (ps ++ rest) s =
      collectAnswers label loads rest (collectAnswers label loads ps s).1 := by
  induction ps generalizing s with
  | nil => rfl
  | cons p ps ih =>
      cases hLoad : loads (stripEnds p.2) with
      | error e =>
          rw [collectAnswers_cons_of_error label loads hLoad] at h
          cases h
      | ok metrics =>
          cases hg : (generateInstanceMetrics (label p.1) metrics s).2 with
          | none =>
              rw [collectAnswers_cons_of_none label loads hLoad hg] at h
              rw [List.cons_append, collectAnswers_cons_of_none label loads hLoad hg,
                collectAnswers_cons_of_none label loads hLoad hg]
              exact ih h
          | some e =>
              rw [collectAnswers_cons_of_some label loads hLoad hg, hg] at h
              cases h

theorem sample_eq_of_children_eq {s s' : MetricStore} {m : Metric} {k : String}
    (h : s'.children m.name k = s.children m.name k) (t : Target) :
    s'.sample m k t = s.sample m k t := by
  simp only [MetricStore.sample, h]

/-- An answer that parses and reports every statistic is exported, and the loop goes on. -/
theorem collectAnswers_cons_of_complete {p : ι × String} {metrics : PyVal}
    (hLoad : loads (stripEnds p.2) = .ok metrics)
    (hKeys : ∀ l ∈ instanceLines, ∃ v, getItem metrics l.key = .ok v)
    (hs : s.Fits moduleMetrics) :
    collectAnswers label loads (p :: ps) s =
      collectAnswers label loads ps (generateInstanceMetrics (label p.1) metrics s).1 :=
  collectAnswers_cons_of_none label loads hLoad (generateInstanceMetrics_ok (label p.1) hKeys hs).1

/-- With distinct labels and every answer complete, the loop completes, and each instance ends
with the statistics its own answer reported. -/
theorem collectAnswers_ok (hs : s.Fits moduleMetrics) (hLabels : (ps.map fun p => label p.1).Nodup)
    (hAll : ∀ p ∈ ps, AnswerComplete loads p) :
    (collectAnswers label loads ps s).2 = none ∧
      ∀ p ∈ ps, ∀ metrics, loads (stripEnds p.2) = .ok metrics →
        ∀ l ∈ instanceLines,
          (collectAnswers label loads ps s).1.sample l.metric (label p.1) l.target =
            (getItem metrics l.key).toOption := by
  induction ps generalizing s with
  | nil => exact ⟨rfl, fun _ h => nomatch h⟩
  | cons p ps ih =>
      obtain ⟨metrics, hLoad, hKeys⟩ := hAll p (.head _)
      have hRest := ih (generateInstanceMetrics_fits (label p.1) metrics hs)
        (List.nodup_cons.mp hLabels).2 fun q hq => hAll q (.tail _ hq)
      rw [collectAnswers_cons_of_complete label loads hLoad hKeys hs]
      refine ⟨hRest.1, fun q hq metrics' hLoad' l hl => ?_⟩
      rcases List.mem_cons.mp hq with rfl | hq
      · rw [hLoad] at hLoad'
        cases hLoad'
        have hOther : ∀ q' ∈ ps, label q.1 ≠ label q'.1 := fun q' hq' hEq =>
          (List.nodup_cons.mp hLabels).1 (List.mem_map.mpr ⟨q', hq', hEq.symm⟩)
        rw [sample_eq_of_children_eq (collectAnswers_children_other label loads hOther)]
        exact (generateInstanceMetrics_ok (label q.1) hKeys hs).2 l hl
      · exact hRest.2 q hq metrics' hLoad' l hl

/-- With distinct labels and every answer complete, the loop leaves the same registry in
whatever order the answers come: the exports of two instances commute. -/
theorem collectAnswers_perm {ps' : List (ι × String)} (hPerm : ps.Perm ps')
    (hs : s.Fits moduleMetrics) (hLabels : (ps.map fun p => label p.1).Nodup)
    (hAll : ∀ p ∈ ps, AnswerComplete loads p) :
    collectAnswers label loads ps s = collectAnswers label loads ps' s := by
  induction hPerm generalizing s with
  | nil => rfl
  | cons p _ ih =>
      obtain ⟨metrics, hLoad, hKeys⟩ := hAll p (.head _)
      rw [collectAnswers_cons_of_complete label loads hLoad hKeys hs,
        collectAnswers_cons_of_complete label loads hLoad hKeys hs]
      exact ih (generateInstanceMetrics_fits (label p.1) metrics hs)
        (List.nodup_cons.mp hLabels).2 fun q hq => hAll q (.tail _ hq)
  | swap p q rest =>
      obtain ⟨metricsP, hLoadP, hKeysP⟩ := hAll p (.tail _ (.head _))
      obtain ⟨metricsQ, hLoadQ, hKeysQ⟩ := hAll q (.head _)
      have hne : label p.1 ≠ label q.1 := fun hEq =>
        (List.nodup_cons.mp hLabels).1 (List.mem_cons.mpr (.inl hEq.symm))
      rw [collectAnswers_cons_of_complete label loads hLoadQ hKeysQ hs,
        collectAnswers_cons_of_complete label loads hLoadP hKeysP
          (generateInstanceMetrics_fits (label q.1) metricsQ hs),
        collectAnswers_cons_of_complete label loads hLoadP hKeysP hs,
        collectAnswers_cons_of_complete label loads hLoadQ hKeysQ
          (generateInstanceMetrics_fits (label p.1) metricsP hs),
        generateInstanceMetrics_comm (label p.1) hne hKeysP hKeysQ hs]
  | trans h₁ _ ih₁ ih₂ =>
      rw [ih₁ hs hLabels hAll]
      exact ih₂ hs ((h₁.map _).nodup_iff.mp hLabels) fun q hq => hAll q (h₁.mem_iff.mpr hq)

/-- An answer that does not parse, or lacks a statistic, stops the loop; its export changed the
store at most under its instance's label. -/
theorem collectAnswers_cons_of_failed {p : ι × String}
    (hFail : (∃ e, loads (stripEnds p.2) = .error e) ∨
      ∃ metrics, loads (stripEnds p.2) = .ok metrics ∧
        ∃ l ∈ instanceLines, ∃ e, getItem metrics l.key = .error e) :
    ∃ s' e, collectAnswers label loads (p :: ps) s = (s', some e) ∧
      ∀ n k, k ≠ label p.1 → s'.children n k = s.children n k := by
  rcases hFail with ⟨e, hLoad⟩ | ⟨metrics, hLoad, l, hl, e, he⟩
  · exact ⟨s, e, collectAnswers_cons_of_error label loads hLoad, fun _ _ _ => rfl⟩
  · have hErr : (generateInstanceMetrics (label p.1) metrics s).2.isSome :=
      runLines_error_of_mem hl he
    obtain ⟨e', he'⟩ := Option.isSome_iff_exists.mp hErr
    refine ⟨(generateInstanceMetrics (label p.1) metrics s).1, e', ?_,
      fun n k hk => runLines_children_other fun _ _ => .inr hk⟩
    rw [collectAnswers_cons_of_some label loads hLoad he',
      ← Prod.eta (generateInstanceMetrics (label p.1) metrics s), he']

/-- On a registry in shape, every exception the loop raises is one `json.loads` raised on an
answer, or the lookup error of a statistic of a parsed answer. -/
theorem collectAnswers_error_of_lookup (hs : s.Fits moduleMetrics) {e : StatsError}
    (h : (collectAnswers label loads ps s).2 = some e) :
    ∃ p ∈ ps, loads (stripEnds p.2) = .error e ∨
      ∃ metrics, loads (stripEnds p.2) = .ok metrics ∧
        ∃ l ∈ instanceLines, getItem metrics l.key = .error e := by
  induction ps generalizing s with
  | nil => cases h
  | cons p ps ih =>
      cases hLoad : loads (stripEnds p.2) with
      | error e' =>
          rw [collectAnswers_cons_of_error label loads hLoad] at h
          cases h
          exact ⟨p, .head _, .inl hLoad⟩
      | ok metrics =>
          cases hg : (generateInstanceMetrics (label p.1) metrics s).2 with
          | none =>
              rw [collectAnswers_cons_of_none label loads hLoad hg] at h
              obtain ⟨q, hq, he⟩ := ih (generateInstanceMetrics_fits (label p.1) metrics hs) h
              exact ⟨q, .tail _ hq, he⟩
          | some e' =>
              rw [collectAnswers_cons_of_some label loads hLoad hg, hg] at h
              cases h
              exact ⟨p, .head _, .inr ⟨metrics, hLoad, runLines_error_of_lookup hs
                moduleMetrics_names_nodup instanceLines_valid hg⟩⟩

end Answers

section Collect

/-- An answer as the manager passes it on: the text with one character at each end, which
`raw[1:-1]` strips. -/
def quoted (text : String) : String := "'" ++ text ++ "'"

/-- The JSON text of a report giving every statistic the value `v`. -/
def fullReport (v : Nat) : String := jsonObject ((instanceLines.map Line.key).map fun k => (k, v))

theorem stripEnds_quoted (text : String) : stripEnds (quoted text) = text := by
  cases text
  simp [stripEnds, quoted, String.toList]

theorem statsLoads_fullReport (v : Nat) :
    statsLoads (fullReport v) = .ok (statsReport (instanceLines.map Line.key) (.int v)) :=
  statsLoads_report v instanceKeys_plain instanceKeys_nodup

theorem fullReport_complete {ι : Type} (i : ι) (v : Nat) :
    AnswerComplete statsLoads (i, quoted (fullReport v)) :=
  ⟨_, by rw [stripEnds_quoted, statsLoads_fullReport], fun l hl =>
    ⟨_, getItem_report_of_mem _ (List.mem_map_of_mem _ hl)⟩⟩

variable {ι : Type} (commandAll : String → List (ι × String)) (label : ι → String)
  (loads : String → Except StatsError PyVal) {s : MetricStore}

/-- Whatever the manager answers, `collect` removes no child from the registry, so a series once
exported stays exported, and it keeps every child of the module's metrics in its metric's
shape. -/
theorem collect_keeps_children (hs : s.Fits moduleMetrics) :
    (∀ n k, (s.children n k).isSome →
      ((collect commandAll label loads s).1.children n k).isSome) ∧
      (collect commandAll label loads s).1.Fits moduleMetrics :=
  ⟨fun n k h => collectAnswers_induct label loads (fun s' => (s'.children n k).isSome)
      (fun _ _ _ _ hs' => runLines_induct (fun s' => (s'.children n k).isSome)
        (fun _ _ _ h' => execLine_children_isSome h') hs') h,
    collectAnswers_fits label loads hs⟩

theorem stopped_instance_still_exported :
    ((collect (fun _ => [("kresd2", quoted (fullReport 2))]) id statsLoads
      (MetricStore.empty.put kresdRequestTotal "kresd1" (.counter (.int 5)))).1.children
        "kresd_request_total" "kresd1").isSome :=
  (collect_keeps_children _ id _ (MetricStore.put_fits (MetricStore.empty_fits moduleMetrics)
    moduleMetrics_names_nodup (List.mem_cons_of_mem _ (List.mem_cons_self _ _))
    (show Child.Fits (.counter (.int 5)) kresdRequestTotal from rfl))).1 _ _ rfl

/-- On a registry in shape, the private-field accesses of `_generate_instance_metrics` never
fail: every `_buckets[i]` is in range and every `_value` exists. So every exception the loop of
`collect` raises before `generate_latest()` is one `json.loads` raised on an answer, or the
`KeyError` or `TypeError` of looking up a statistic in a parsed answer; never an `IndexError` or
`AttributeError`. -/
theorem collect_errors_are_lookups (hs : s.Fits moduleMetrics) {e : StatsError}
    (h : (collect commandAll label loads s).2 = some e) :
    ∃ p ∈ commandAll onDemandStatsQuery, loads (stripEnds p.2) = .error e ∨
      ∃ metrics, loads (stripEnds p.2) = .ok metrics ∧
        ∃ l ∈ instanceLines, getItem metrics l.key = .error e :=
  collectAnswers_error_of_lookup label loads hs h

/-- An answer cut off inside its object fails in `json.loads`. -/
theorem unparsed_answer_error_is_decode :
    ∃ p ∈ [("kresd1", quoted "\x7b\"answer.1ms\": 3")],
      statsLoads (stripEnds p.2) = .error jsonRejected ∨
        ∃ metrics, statsLoads (stripEnds p.2) = .ok metrics ∧ ∃ l ∈ instanceLines,
          getItem metrics l.key = .error jsonRejected :=
  collect_errors_are_lookups (fun _ => [("kresd1", quoted "\x7b\"answer.1ms\": 3")]) id statsLoads
    (MetricStore.empty_fits moduleMetrics) rfl

/-- With the instances' labels distinct and every answer parsing and reporting every statistic,
`collect` completes, and each instance that answered ends with the statistics of its own answer.
An instance that did not answer keeps whatever its label had. -/
theorem collect_exports_every_instance (hs : s.Fits moduleMetrics)
    (hLabels : ((commandAll onDemandStatsQuery).map fun p => label p.1).Nodup)
    (hAll : ∀ p ∈ commandAll onDemandStatsQuery, AnswerComplete loads p) :
    (collect commandAll label loads s).2 = none ∧
      (∀ p ∈ commandAll onDemandStatsQuery, ∀ metrics, loads (stripEnds p.2) = .ok metrics →
        ∀ l ∈ instanceLines,
          (collect commandAll label loads s).1.sample l.metric (label p.1) l.target =
            (getItem metrics l.key).toOption) ∧
      ∀ n k, (∀ p ∈ commandAll onDemandStatsQuery, k ≠ label p.1) →
        (collect commandAll label loads s).1.children n k = s.children n k :=
  have hOk := collectAnswers_ok label loads hs hLabels hAll
  ⟨hOk.1, hOk.2, fun _ _ h => collectAnswers_children_other label loads h⟩

/-- Two instances reporting every statistic as `1` and `2`: `collect` completes, and the second
instance's request counter reads its own `2`. -/
theorem two_instances_exported :
    (collect (fun _ => [("kresd1", quoted (fullReport 1)), ("kresd2", quoted (fullReport 2))]) id
        statsLoads MetricStore.empty).2 = none ∧
      (collect (fun _ => [("kresd1", quoted (fullReport 1)), ("kresd2", quoted (fullReport 2))]) id
        statsLoads MetricStore.empty).1.sample kresdRequestTotal "kresd2" .value = some (.int 2) :=
  have h := collect_exports_every_instance
    (fun _ => [("kresd1", quoted (fullReport 1)), ("kresd2", quoted (fullReport 2))]) id statsLoads
    (MetricStore.empty_fits moduleMetrics) (by decide)
    (List.forall_mem_cons.mpr ⟨fullReport_complete _ _,
      List.forall_mem_cons.mpr ⟨fullReport_complete _ _, List.forall_mem_nil _⟩⟩)
  ⟨h.1, (h.2.1 _ (List.mem_cons_of_mem _ (List.mem_singleton_self _)) _
      (by rw [stripEnds_quoted, statsLoads_fullReport]) ⟨kresdRequestTotal, .value, "request.total"⟩
      (List.mem_append_right _ (List.mem_cons_self _ _))).trans
    (by rw [getItem_report_of_mem _ (by decide)]; rfl)⟩

/-- With the instances' labels distinct and every answer complete, `collect` leaves the same
samples whatever order the manager lists the answers in. The order the children were created
in, which the exposition lists them in, is not part of the store. -/
theorem collect_order_irrelevant (commandAll' : String → List (ι × String))
    (hs : s.Fits moduleMetrics)
    (hPerm : (commandAll' onDemandStatsQuery).Perm (commandAll onDemandStatsQuery))
    (hLabels : ((commandAll onDemandStatsQuery).map fun p => label p.1).Nodup)
    (hAll : ∀ p ∈ commandAll onDemandStatsQuery, AnswerComplete loads p) :
    collect commandAll' label loads s = collect commandAll label loads s :=
  (collectAnswers_perm label loads hPerm.symm hs hLabels hAll).symm

theorem two_instances_either_order :
    collect (fun _ => [("kresd2", quoted (fullReport 2)), ("kresd1", quoted (fullReport 1))]) id
        statsLoads MetricStore.empty =
      collect (fun _ => [("kresd1", quoted (fullReport 1)), ("kresd2", quoted (fullReport 2))]) id
        statsLoads MetricStore.empty :=
  collect_order_irrelevant _ id _ _ (MetricStore.empty_fits moduleMetrics) (List.Perm.swap _ _ _)
    (by decide) (List.forall_mem_cons.mpr ⟨fullReport_complete _ _,
      List.forall_mem_cons.mpr ⟨fullReport_complete _ _, List.forall_mem_nil _⟩⟩)

/-- When an answer fails, because it does not parse or a statistic is missing, and the answers
before it are complete, `collect` raises. The instances before it have exported their
statistics, and the instances after it keep what their labels had: the samples of the previous
collection. -/
theorem collect_stops_at_failed_instance (hs : s.Fits moduleMetrics)
    (hLabels : ((commandAll onDemandStatsQuery).map fun p => label p.1).Nodup)
    {before after : List (ι × String)} {p : ι × String}
    (hSplit : commandAll onDemandStatsQuery = before ++ p :: after)
    (hBefore : ∀ q ∈ before, AnswerComplete loads q)
    (hFail : (∃ e, loads (stripEnds p.2) = .error e) ∨
      ∃ metrics, loads (stripEnds p.2) = .ok metrics ∧
        ∃ l ∈ instanceLines, ∃ e, getItem metrics l.key = .error e) :
    (collect commandAll label loads s).2.isSome ∧
      (∀ q ∈ before, ∀ metrics, loads (stripEnds q.2) = .ok metrics →
        ∀ l ∈ instanceLines,
          (collect commandAll label loads s).1.sample l.metric (label q.1) l.target =
            (getItem metrics l.key).toOption) ∧
      ∀ q ∈ after, ∀ n, (collect commandAll label loads s).1.children n (label q.1) =
        s.children n (label q.1) := by
  rw [hSplit, List.map_append, List.map_cons] at hLabels
  obtain ⟨hLabelsBefore, hLabelsRest, hDisjoint⟩ := List.nodup_append.mp hLabels
  have hp : ∀ q ∈ before, label q.1 ≠ label p.1 := fun q hq hEq =>
    hDisjoint (List.mem_map.mpr ⟨q, hq, rfl⟩) (List.mem_cons.mpr (.inl hEq))
  have hAfter : ∀ q ∈ after, ∀ q' ∈ before ++ [p], label q.1 ≠ label q'.1 := by
    intro q hq q' hq' hEq
    rcases List.mem_append.mp hq' with hq' | hq'
    · exact hDisjoint (List.mem_map.mpr ⟨q', hq', rfl⟩)
        (.tail _ (List.mem_map.mpr ⟨q, hq, hEq⟩))
    · rw [List.mem_singleton.mp hq'] at hEq
      exact (List.nodup_cons.mp hLabelsRest).1 (List.mem_map.mpr ⟨q, hq, hEq⟩)
  -- The loop reaches `p` with the store the complete answers before it left.
  have hOk := collectAnswers_ok label loads hs hLabelsBefore hBefore
  set s₁ := (collectAnswers label loads before s).1
  have hRun : collect commandAll label loads s = collectAnswers label loads (p :: after) s₁ := by
    rw [collect, hSplit, collectAnswers_append_of_none label loads hOk.1]
  obtain ⟨s₂, e, hStep, hFrame⟩ := collectAnswers_cons_of_failed label loads hFail
  rw [hRun, hStep]
  refine ⟨rfl, fun q hq metrics hLoad l hl => ?_, fun q hq n => ?_⟩
  · rw [sample_eq_of_children_eq (hFrame _ _ (hp q hq))]
    exact hOk.2 q hq metrics hLoad l hl
  · rw [hFrame _ _ (hAfter q hq p (List.mem_append_right _ (.head _))),
      collectAnswers_children_other label loads fun q' hq' =>
        hAfter q hq q' (List.mem_append_left _ hq')]

/-- The second of three instances gives an empty answer, which `json.loads` rejects. -/
theorem unparsed_answer_stops_collect :
    (collect (fun _ => [("kresd1", quoted (fullReport 1)), ("kresd2", quoted ""),
      ("kresd3", quoted (fullReport 3))]) id statsLoads MetricStore.empty).2.isSome :=
  (collect_stops_at_failed_instance _ id _ (MetricStore.empty_fits moduleMetrics) (by decide)
    (show [("kresd1", quoted (fullReport 1)), ("kresd2", quoted ""),
        ("kresd3", quoted (fullReport 3))] =
      [("kresd1", quoted (fullReport 1))] ++ ("kresd2", quoted "") ::
        [("kresd3", quoted (fullReport 3))] from rfl)
    (fun q hq => List.mem_singleton.mp hq ▸ fullReport_complete _ _)
    (.inl ⟨_, show statsLoads (stripEnds (quoted "")) = .error jsonRejected from rfl⟩)).1

end Collect

end KnotSchema
