import Mathlib.Data.List.Nodup
import KnotSchema.Statistics.Store

/-! What an export leaves in the registry. Each statement's outcome is said once
(`execLine_eq`); the frame, shape and value facts of a statement follow from it, and
`runLines_induct` lifts the ones that hold whatever the outcome to a run of statements.

A call of `_generate_instance_metrics` writes only under its instance's label. With every
statistic present it sets each of the instance's 32 samples to the statistic its statement
reads, and what it leaves there does not depend on the registry before: a repeated export
changes nothing, and the exports of two instances commute. With a statistic missing it stops at
the first missing one in the code's order, keeping what it wrote before, and the child that the
failing statement's `labels()` created. -/
namespace KnotSchema

/-- Every child of a metric of `ms` has that metric's shape. -/
def MetricStore.Fits (s : MetricStore) (ms : List Metric) : Prop :=
  ∀ m ∈ ms, ∀ label ch, s.children m.name label = some ch → ch.Fits m

theorem MetricStore.empty_fits (ms : List Metric) : MetricStore.empty.Fits ms :=
  fun _ _ _ _ h => nomatch h

namespace MetricStore

variable {s : MetricStore} {m : Metric} {label : String}

/-- `labels()` keeps every child that exists. -/
theorem labels_children_of_some {n k : String} {ch : Child} (h : s.children n k = some ch) :
    (s.labels m label).1.children n k = some ch := by
  rw [labels_children]
  split_ifs with hnk
  · obtain ⟨rfl, rfl⟩ := hnk
    rw [labels_of_some h]
  · exact h

/-- `labels()` keeps every sample that exists. -/
theorem labels_sample_keep {m' : Metric} {k : String} {t : Target} {v : PyVal}
    (h : s.sample m' k t = some v) : (s.labels m label).1.sample m' k t = some v := by
  obtain ⟨ch, hch, hRead⟩ := Option.bind_eq_some.mp h
  simp only [sample, labels_children_of_some hch, Option.some_bind, hRead]

variable {ms : List Metric} (hs : s.Fits ms) (hms : (ms.map Metric.name).Nodup) (hm : m ∈ ms)
include hs hms hm

theorem put_fits {ch : Child} (hch : ch.Fits m) : (s.put m label ch).Fits ms := by
  intro m' hm' k ch' h
  rw [put_children] at h
  split_ifs at h with hnk
  · cases h
    rwa [List.inj_on_of_nodup_map hms hm' hm hnk.1]
  · exact hs m' hm' k ch' h

/-- `labels()` keeps the store in shape and returns a child of the metric's shape. -/
theorem labels_fits (label : String) :
    (s.labels m label).1.Fits ms ∧ (s.labels m label).2.Fits m := by
  unfold labels
  cases h : s.children m.name label with
  | none => exact ⟨put_fits hs hms hm m.fresh_fits, m.fresh_fits⟩
  | some ch => exact ⟨hs, hs m hm label ch h⟩

end MetricStore

section Line

variable {sid : String} {metrics : PyVal} {l : Line} {s : MetricStore}

/-- What a statement does: it raises with the store `labels()` left, or it completes having
reached its target and read its statistic, and writes the one into the other. -/
theorem execLine_eq (sid : String) (metrics : PyVal) (l : Line) (s : MetricStore) :
    (∃ e, execLine sid metrics l s = ((s.labels l.metric sid).1, some e)) ∨
      ∃ write v, (s.labels l.metric sid).2.select l.target = .ok write ∧
        getItem metrics l.key = .ok v ∧
        execLine sid metrics l s =
          ((s.labels l.metric sid).1.put l.metric sid (write v), none) := by
  cases hSelect : (s.labels l.metric sid).2.select l.target with
  | error e => exact .inl ⟨e, by simp only [execLine, hSelect]⟩
  | ok write =>
      cases hv : getItem metrics l.key with
      | error e => exact .inl ⟨e, by simp only [execLine, hSelect, hv]⟩
      | ok v => exact .inr ⟨write, v, rfl, rfl, by simp only [execLine, hSelect, hv]⟩

/-- A statement writes only under its own metric and label, whatever its outcome. -/
theorem execLine_children_other {n k : String} (h : n ≠ l.metric.name ∨ k ≠ sid) :
    (execLine sid metrics l s).1.children n k = s.children n k := by
  have hOther : ¬(n = l.metric.name ∧ k = sid) := fun ⟨hn, hk⟩ => h.elim (· hn) (· hk)
  rcases execLine_eq sid metrics l s with ⟨e, hE⟩ | ⟨write, v, -, -, hE⟩ <;> rw [hE] <;>
    simp only [MetricStore.put_children, MetricStore.labels_children, if_neg hOther]

/-- A sample a statement does not target keeps its value, whatever the statement's outcome. -/
theorem execLine_sample_keep {m : Metric} {label : String} {t : Target} {v : PyVal}
    (h : m.name ≠ l.metric.name ∨ label ≠ sid ∨ t ≠ l.target)
    (hv : s.sample m label t = some v) :
    (execLine sid metrics l s).1.sample m label t = some v := by
  have hLabels : (s.labels l.metric sid).1.sample m label t = some v :=
    MetricStore.labels_sample_keep hv
  obtain ⟨ch, hch, hRead⟩ := Option.bind_eq_some.mp hv
  rcases execLine_eq sid metrics l s with ⟨e, hE⟩ | ⟨write, v', hSelect, -, hE⟩ <;> rw [hE]
  · exact hLabels
  · by_cases hSame : m.name = l.metric.name ∧ label = sid
    · obtain ⟨hn, rfl⟩ := hSame
      have ht : t ≠ l.target := by simpa [hn] using h
      rw [hn] at hch
      simp only [MetricStore.labels_of_some hch] at hSelect ⊢
      simp [MetricStore.sample, MetricStore.put_children, hn, Child.select_frame hSelect _ t ht,
        hRead]
    · simpa [MetricStore.sample, MetricStore.put_children, hSame] using hLabels

/-- A statement removes no child, whatever its outcome. -/
theorem execLine_children_isSome {n k : String} (h : (s.children n k).isSome) :
    ((execLine sid metrics l s).1.children n k).isSome := by
  obtain ⟨ch, hch⟩ := Option.isSome_iff_exists.mp h
  have hLabels : (s.labels l.metric sid).1.children n k = some ch :=
    MetricStore.labels_children_of_some hch
  rcases execLine_eq sid metrics l s with ⟨e, hE⟩ | ⟨write, v, -, -, hE⟩ <;> rw [hE]
  · simp [hLabels]
  · rw [MetricStore.put_children]
    split_ifs <;> simp [hLabels]

/-- A statement that completes has read its statistic. -/
theorem execLine_key_of_none (h : (execLine sid metrics l s).2 = none) :
    ∃ v, getItem metrics l.key = .ok v := by
  rcases execLine_eq sid metrics l s with ⟨e, hE⟩ | ⟨write, v, -, hv, -⟩
  · rw [hE] at h
    cases h
  · exact ⟨v, hv⟩

variable {ms : List Metric} (hs : s.Fits ms) (hms : (ms.map Metric.name).Nodup)
  (hm : l.metric ∈ ms)
include hs hms hm

/-- A statement keeps every child of the metrics `ms` in shape: it creates a fresh child or
writes through a reached target. -/
theorem execLine_fits : (execLine sid metrics l s).1.Fits ms := by
  obtain ⟨hStore, hChild⟩ := MetricStore.labels_fits hs hms hm sid
  rcases execLine_eq sid metrics l s with ⟨e, hE⟩ | ⟨write, v, hSelect, -, hE⟩ <;> rw [hE]
  · exact hStore
  · exact MetricStore.put_fits hStore hms hm (Child.select_fits hSelect hChild v)

variable (sid)

/-- A valid statement whose statistic is present completes and exports it. -/
theorem execLine_ok {v : PyVal} (hValid : l.valid) (hv : getItem metrics l.key = .ok v) :
    (execLine sid metrics l s).2 = none ∧
      (execLine sid metrics l s).1.sample l.metric sid l.target = some v := by
  obtain ⟨write, hSelect⟩ :=
    Child.select_of_valid (MetricStore.labels_fits hs hms hm sid).2 hValid
  have hE : execLine sid metrics l s =
      ((s.labels l.metric sid).1.put l.metric sid (write v), none) := by
    simp only [execLine, hSelect, hv]
  rw [hE]
  exact ⟨rfl, by simp [MetricStore.sample, MetricStore.put_children, Child.select_read hSelect]⟩

/-- A valid statement whose statistic cannot be read raises that error, after `labels()`. -/
theorem execLine_error {e : StatsError} (hValid : l.valid) (he : getItem metrics l.key = .error e) :
    execLine sid metrics l s = ((s.labels l.metric sid).1, some e) := by
  obtain ⟨write, hSelect⟩ :=
    Child.select_of_valid (MetricStore.labels_fits hs hms hm sid).2 hValid
  simp only [execLine, hSelect, he]

/-- On a child of its metric's shape a valid statement reaches its target, so the only exception
it can raise is its statistic's lookup error. -/
theorem execLine_error_of_lookup {e : StatsError} (hValid : l.valid)
    (h : (execLine sid metrics l s).2 = some e) : getItem metrics l.key = .error e := by
  cases hv : getItem metrics l.key with
  | error e' =>
      rw [execLine_error sid hs hms hm hValid hv] at h
      cases h
      rfl
  | ok v =>
      rw [(execLine_ok sid hs hms hm hValid hv).1] at h
      cases h

end Line

section Run

variable {sid : String} {metrics : PyVal} {ls : List Line} {s : MetricStore}

theorem runLines_cons_of_none {l : Line} (h : (execLine sid metrics l s).2 = none) :
    runLines sid metrics (l :: ls) s = runLines sid metrics ls (execLine sid metrics l s).1 := by
  rw [runLines, ← Prod.eta (execLine sid metrics l s), h]

theorem runLines_cons_of_some {l : Line} {e : StatsError}
    (h : (execLine sid metrics l s).2 = some e) :
    runLines sid metrics (l :: ls) s = execLine sid metrics l s := by
  rw [runLines, ← Prod.eta (execLine sid metrics l s), h]

/-- A property every statement of `ls` keeps, whatever its outcome, holds after the run. -/
theorem runLines_induct (P : MetricStore → Prop)
    (hStep : ∀ l ∈ ls, ∀ s, P s → P (execLine sid metrics l s).1) (hs : P s) :
    P (runLines sid metrics ls s).1 := by
  induction ls generalizing s with
  | nil => exact hs
  | cons l ls ih =>
      have hl := hStep l (.head _) s hs
      cases h : (execLine sid metrics l s).2 with
      | none =>
          rw [runLines_cons_of_none h]
          exact ih (fun l' hl' => hStep l' (.tail _ hl')) hl
      | some e => rwa [runLines_cons_of_some h]

/-- A run writes only under the metrics its statements name and its own label. -/
theorem runLines_children_other {n k : String}
    (h : ∀ l ∈ ls, n ≠ l.metric.name ∨ k ≠ sid) :
    (runLines sid metrics ls s).1.children n k = s.children n k :=
  runLines_induct (fun s' => s'.children n k = s.children n k)
    (fun l hl _ hs' => (execLine_children_other (h l hl)).trans hs') rfl

/-- A sample no statement of the run targets keeps its value. -/
theorem runLines_sample_keep {m : Metric} {label : String} {t : Target} {v : PyVal}
    (h : ∀ l ∈ ls, m.name ≠ l.metric.name ∨ label ≠ sid ∨ t ≠ l.target)
    (hv : s.sample m label t = some v) : (runLines sid metrics ls s).1.sample m label t = some v :=
  runLines_induct (fun s' => s'.sample m label t = some v)
    (fun l hl _ hs' => execLine_sample_keep (h l hl) hs') hv

/-- A run that reaches a statement whose statistic cannot be read raises. -/
theorem runLines_error_of_mem {l : Line} {e : StatsError} (hl : l ∈ ls)
    (he : getItem metrics l.key = .error e) : (runLines sid metrics ls s).2.isSome := by
  induction ls generalizing s with
  | nil => cases hl
  | cons l' ls ih =>
      cases h : (execLine sid metrics l' s).2 with
      | none =>
          rw [runLines_cons_of_none h]
          rcases List.mem_cons.mp hl with rfl | hl
          · obtain ⟨v, hv⟩ := execLine_key_of_none h
            rw [hv] at he
            cases he
          · exact ih hl
      | some e => rw [runLines_cons_of_some h, h]; rfl

/-- A run whose first part completes goes on from where that part left the store. -/
theorem runLines_append_of_none {pre rest : List Line} (h : (runLines sid metrics pre s).2 = none) :
    runLines sid metrics (pre ++ rest) s =
      runLines sid metrics rest (runLines sid metrics pre s).1 := by
  induction pre generalizing s with
  | nil => rfl
  | cons l pre ih =>
      cases hl : (execLine sid metrics l s).2 with
      | none =>
          rw [runLines_cons_of_none hl] at h
          rw [List.cons_append, runLines_cons_of_none hl, runLines_cons_of_none hl]
          exact ih h
      | some e =>
          rw [runLines_cons_of_some hl, hl] at h
          cases h

variable {ms : List Metric} (hs : s.Fits ms) (hms : (ms.map Metric.name).Nodup)
include hs hms

/-- A run over statements of the metrics `ms` keeps their children in shape. -/
theorem runLines_fits (hls : ∀ l ∈ ls, l.metric ∈ ms) :
    (runLines sid metrics ls s).1.Fits ms :=
  runLines_induct (fun s' => s'.Fits ms) (fun l hl _ hs' => execLine_fits hs' hms (hls l hl)) hs

/-- On a registry in shape, every exception a run of valid statements raises is the lookup error
of one of its statements. -/
theorem runLines_error_of_lookup {e : StatsError} (hls : ∀ l ∈ ls, l.metric ∈ ms ∧ l.valid)
    (h : (runLines sid metrics ls s).2 = some e) :
    ∃ l ∈ ls, getItem metrics l.key = .error e := by
  induction ls generalizing s with
  | nil => cases h
  | cons l ls ih =>
      cases hl : (execLine sid metrics l s).2 with
      | none =>
          rw [runLines_cons_of_none hl] at h
          obtain ⟨l', hl', he⟩ := ih (execLine_fits hs hms (hls l (.head _)).1)
            (fun l' hl' => hls l' (.tail _ hl')) h
          exact ⟨l', .tail _ hl', he⟩
      | some e' =>
          rw [runLines_cons_of_some hl, hl] at h
          cases h
          exact ⟨l, .head _, execLine_error_of_lookup sid hs hms (hls l (.head _)).1
            (hls l (.head _)).2 hl⟩

/-- With every statistic present, a run of valid statements with distinct targets completes and
exports each statement's statistic. -/
theorem runLines_ok (hls : ∀ l ∈ ls, l.metric ∈ ms ∧ l.valid)
    (hKeys : ∀ l ∈ ls, ∃ v, getItem metrics l.key = .ok v)
    (hDistinct : (ls.map fun l => (l.metric.name, l.target)).Nodup) :
    (runLines sid metrics ls s).2 = none ∧
      ∀ l ∈ ls, (runLines sid metrics ls s).1.sample l.metric sid l.target =
        (getItem metrics l.key).toOption := by
  induction ls generalizing s with
  | nil => exact ⟨rfl, fun _ h => nomatch h⟩
  | cons l ls ih =>
      obtain ⟨v, hv⟩ := hKeys l (.head _)
      obtain ⟨hNone, hSample⟩ :=
        execLine_ok sid hs hms (hls l (.head _)).1 (hls l (.head _)).2 hv
      have hFits : (execLine sid metrics l s).1.Fits ms := execLine_fits hs hms (hls l (.head _)).1
      have hRest := ih hFits
        (fun l' hl' => hls l' (.tail _ hl')) (fun l' hl' => hKeys l' (.tail _ hl'))
        (List.nodup_cons.mp hDistinct).2
      rw [runLines_cons_of_none hNone]
      refine ⟨hRest.1, fun l' hl' => ?_⟩
      rcases List.mem_cons.mp hl' with rfl | hl'
      · rw [hv, runLines_sample_keep _ hSample]
        · rfl
        · intro l'' hl''
          have hNot := (List.nodup_cons.mp hDistinct).1
          by_cases hn : l'.metric.name = l''.metric.name
          · exact .inr (.inr fun ht =>
              hNot (List.mem_map.mpr ⟨l'', hl'', by simp only [hn, ht]⟩))
          · exact .inl hn
      · exact hRest.2 l' hl'

end Run

/-! The statements of `_generate_instance_metrics` against the module's metrics. -/

theorem moduleMetrics_names_nodup : (moduleMetrics.map Metric.name).Nodup := by decide

/-- The module's metrics are the latency histogram and the counters, in their statements'
order. -/
theorem moduleMetrics_eq : moduleMetrics = kresdResponseLatency :: counterLines.map Line.metric :=
  rfl

theorem latencyLines_targets : latencyLines.map Line.target = (List.range 9).map .bucket := rfl

theorem latencyLines_metric : ∀ l ∈ latencyLines, l.metric = kresdResponseLatency := by
  intro l hl
  obtain ⟨p, -, rfl⟩ := List.mem_map.mp hl
  rfl

/-- Every counter statement writes the `_value` of a counter. -/
theorem counterLines_shape :
    ∀ l ∈ counterLines, l.metric.kind = .counter ∧ l.target = .value := by
  decide

/-- Every statement names a module metric and reaches what its children have. -/
theorem instanceLines_valid : ∀ l ∈ instanceLines, l.metric ∈ moduleMetrics ∧ l.valid := by
  intro l hl
  rcases List.mem_append.mp hl with hl | hl
  · have hValid : ∀ l ∈ latencyLines, l.valid := by decide
    exact ⟨latencyLines_metric l hl ▸ List.mem_cons_self _ _, hValid l hl⟩
  · obtain ⟨hKind, hTarget⟩ := counterLines_shape l hl
    refine ⟨moduleMetrics_eq ▸ List.mem_cons_of_mem _ (List.mem_map_of_mem _ hl), ?_⟩
    simp only [Line.valid, hKind, hTarget]

/-- No two statements write the same sample: the latency statements write distinct buckets, and
the counters are distinct metrics, none of them the histogram. -/
theorem instanceLines_targets_nodup :
    (instanceLines.map fun l => (l.metric.name, l.target)).Nodup := by
  have hNames := moduleMetrics_names_nodup
  rw [moduleMetrics_eq, List.map_cons, List.nodup_cons, List.map_map] at hNames
  rw [instanceLines, List.map_append, List.nodup_append]
  refine ⟨List.Nodup.of_map Prod.snd ?_, List.Nodup.of_map Prod.fst ?_, ?_⟩
  · rw [List.map_map]
    exact latencyLines_targets ▸ (by decide : ((List.range 9).map Target.bucket).Nodup)
  · rw [List.map_map]
    exact hNames.2
  · intro p hp hp'
    obtain ⟨l, hl, rfl⟩ := List.mem_map.mp hp
    obtain ⟨l', hl', hEq⟩ := List.mem_map.mp hp'
    refine hNames.1 (List.mem_map.mpr ⟨l', hl', ?_⟩)
    rw [← latencyLines_metric l hl]
    exact congrArg Prod.fst hEq

/-- Every module metric has a statement. -/
theorem moduleMetrics_have_lines :
    ∀ m ∈ moduleMetrics, ∃ l ∈ instanceLines, l.metric = m := by
  intro m hm
  rw [moduleMetrics_eq] at hm
  rcases List.mem_cons.mp hm with rfl | hm
  · exact ⟨_, List.mem_append_left _ (List.mem_cons_self _ _), rfl⟩
  · obtain ⟨l, hl, rfl⟩ := List.mem_map.mp hm
    exact ⟨l, List.mem_append_right _ hl, rfl⟩

/-- Every target a child of a module metric has is written by some statement. -/
theorem instanceLines_cover {m : Metric} (hm : m ∈ moduleMetrics) {t : Target} {key : String}
    (hValid : Line.valid ⟨m, t, key⟩) :
    ∃ l ∈ instanceLines, l.metric = m ∧ l.target = t := by
  rw [moduleMetrics_eq] at hm
  rcases List.mem_cons.mp hm with rfl | hm
  · cases t with
    | value => cases hValid
    | bucket i =>
        have hi : i < 9 := by simpa [Line.valid, kresdResponseLatency] using hValid
        have hBucket : Target.bucket i ∈ latencyLines.map Line.target := by
          rw [latencyLines_targets]
          exact List.mem_map_of_mem _ (List.mem_range.mpr hi)
        obtain ⟨l, hl, hTarget⟩ := List.mem_map.mp hBucket
        exact ⟨l, List.mem_append_left _ hl, latencyLines_metric l hl, hTarget⟩
  · obtain ⟨l, hl, rfl⟩ := List.mem_map.mp hm
    obtain ⟨hKind, hTarget⟩ := counterLines_shape l hl
    cases t with
    | value => exact ⟨l, List.mem_append_right _ hl, rfl, hTarget⟩
    | bucket i => simp [Line.valid, hKind] at hValid

/-- Two registries in shape that export, under `sid`, a value for every statement and the same
one, hold the same children of the module's metrics under `sid`. -/
theorem children_eq_of_samples {r r' : MetricStore} {sid : String} (hr : r.Fits moduleMetrics)
    (hr' : r'.Fits moduleMetrics)
    (hSet : ∀ l ∈ instanceLines, (r.sample l.metric sid l.target).isSome)
    (hSame : ∀ l ∈ instanceLines,
      r.sample l.metric sid l.target = r'.sample l.metric sid l.target)
    {m : Metric} (hm : m ∈ moduleMetrics) : r.children m.name sid = r'.children m.name sid := by
  obtain ⟨l, hl, rfl⟩ := moduleMetrics_have_lines m hm
  obtain ⟨v, hv⟩ := Option.isSome_iff_exists.mp (hSet l hl)
  obtain ⟨ch, hch, -⟩ := Option.bind_eq_some.mp hv
  obtain ⟨ch', hch', -⟩ := Option.bind_eq_some.mp ((hSame l hl).symm.trans hv)
  rw [hch, hch']
  refine congrArg some (Child.eq_of_read (hr _ hm sid ch hch) (hr' _ hm sid ch' hch') fun t => ?_)
  by_cases hRead : (ch.read t).isSome ∨ (ch'.read t).isSome
  · have hValid : Line.valid ⟨l.metric, t, ""⟩ := hRead.elim
      (Child.valid_of_read (hr _ hm sid ch hch) "") (Child.valid_of_read (hr' _ hm sid ch' hch') "")
    obtain ⟨l', hl', hMetric, rfl⟩ := instanceLines_cover hm hValid
    have h := hSame l' hl'
    simpa [MetricStore.sample, hMetric, hch, hch'] using h
  · simp only [not_or, Option.not_isSome_iff_eq_none] at hRead
    rw [hRead.1, hRead.2]

/-! `_generate_instance_metrics` on the registry. -/

section Instance

variable {s : MetricStore} (sid : String) {metrics : PyVal}

/-- An export writes only under its own label and the module's metrics, whatever its outcome. -/
theorem generateInstanceMetrics_children_other {n k : String}
    (h : k ≠ sid ∨ n ∉ moduleMetrics.map Metric.name) :
    (generateInstanceMetrics sid metrics s).1.children n k = s.children n k := by
  refine runLines_children_other fun l hl => ?_
  rcases h with hk | hn
  · exact .inr hk
  · exact .inl fun h => hn (h ▸ List.mem_map_of_mem _ (instanceLines_valid l hl).1)

theorem generateInstanceMetrics_fits (metrics : PyVal) (hs : s.Fits moduleMetrics) :
    (generateInstanceMetrics sid metrics s).1.Fits moduleMetrics :=
  runLines_fits hs moduleMetrics_names_nodup fun l hl => (instanceLines_valid l hl).1

section Complete

variable (hKeys : ∀ l ∈ instanceLines, ∃ v, getItem metrics l.key = .ok v)
include hKeys

theorem generateInstanceMetrics_ok (hs : s.Fits moduleMetrics) :
    (generateInstanceMetrics sid metrics s).2 = none ∧
      ∀ l ∈ instanceLines,
        (generateInstanceMetrics sid metrics s).1.sample l.metric sid l.target =
          (getItem metrics l.key).toOption :=
  runLines_ok hs moduleMetrics_names_nodup instanceLines_valid hKeys instanceLines_targets_nodup

/-- With every statistic present, `_generate_instance_metrics` completes and exports each
statement's statistic as the sample the statement targets: the nine latency buckets and the 23
counters. It writes nothing under another label or outside the module's metrics, and leaves
every child in shape. -/
theorem instance_statistics_exported (hs : s.Fits moduleMetrics) :
    (generateInstanceMetrics sid metrics s).2 = none ∧
      (∀ l ∈ instanceLines,
        (generateInstanceMetrics sid metrics s).1.sample l.metric sid l.target =
          (getItem metrics l.key).toOption) ∧
      (∀ n k, k ≠ sid ∨ n ∉ moduleMetrics.map Metric.name →
        (generateInstanceMetrics sid metrics s).1.children n k = s.children n k) ∧
      (generateInstanceMetrics sid metrics s).1.Fits moduleMetrics :=
  ⟨(generateInstanceMetrics_ok sid hKeys hs).1, (generateInstanceMetrics_ok sid hKeys hs).2,
    fun _ _ => generateInstanceMetrics_children_other sid,
    generateInstanceMetrics_fits sid metrics hs⟩

omit hKeys in
theorem full_report_exported :
    (generateInstanceMetrics "1" (statsReport (instanceLines.map Line.key) (.int 7))
      MetricStore.empty).2 = none ∧
    (generateInstanceMetrics "1" (statsReport (instanceLines.map Line.key) (.int 7))
      MetricStore.empty).1.sample kresdRequestUdp "1" .value = some (.int 7) :=
  have h := instance_statistics_exported "1"
    (fun l hl => ⟨.int 7, getItem_report_of_mem _ (List.mem_map_of_mem _ hl)⟩)
    (MetricStore.empty_fits moduleMetrics)
  ⟨h.1, (h.2.1 ⟨kresdRequestUdp, .value, "request.udp"⟩ (by decide)).trans
    (congrArg Except.toOption (getItem_report_of_mem _ (by decide)))⟩

/-- After a complete export, the instance's children of the module's metrics do not depend on
what the registry held before. -/
theorem generateInstanceMetrics_children_eq {s' : MetricStore} (hs : s.Fits moduleMetrics)
    (hs' : s'.Fits moduleMetrics) {m : Metric} (hm : m ∈ moduleMetrics) :
    (generateInstanceMetrics sid metrics s).1.children m.name sid =
      (generateInstanceMetrics sid metrics s').1.children m.name sid := by
  have hSample := (generateInstanceMetrics_ok sid hKeys hs).2
  have hSample' := (generateInstanceMetrics_ok sid hKeys hs').2
  refine children_eq_of_samples (generateInstanceMetrics_fits sid metrics hs)
    (generateInstanceMetrics_fits sid metrics hs') (fun l hl => ?_)
    (fun l hl => (hSample l hl).trans (hSample' l hl).symm) hm
  obtain ⟨v, hv⟩ := hKeys l hl
  rw [hSample l hl, hv]
  rfl

/-- Exporting the same statistics again changes nothing: every sample already holds its
statistic, and `labels()` finds every child. -/
theorem export_repeat_unchanged (hs : s.Fits moduleMetrics) :
    generateInstanceMetrics sid metrics (generateInstanceMetrics sid metrics s).1 =
      generateInstanceMetrics sid metrics s := by
  have hFits : (generateInstanceMetrics sid metrics s).1.Fits moduleMetrics :=
    generateInstanceMetrics_fits sid metrics hs
  refine Prod.ext (MetricStore.ext fun n k => ?_)
    ((generateInstanceMetrics_ok sid hKeys hFits).1.trans
      (generateInstanceMetrics_ok sid hKeys hs).1.symm)
  by_cases h : k = sid ∧ n ∈ moduleMetrics.map Metric.name
  · obtain ⟨rfl, hn⟩ := h
    obtain ⟨m, hm, rfl⟩ := List.mem_map.mp hn
    exact generateInstanceMetrics_children_eq k hKeys hFits hs hm
  · exact generateInstanceMetrics_children_other sid (not_and_or.mp h)

omit hKeys in
theorem full_report_exported_again :
    generateInstanceMetrics "1" (statsReport (instanceLines.map Line.key) (.int 7))
      (generateInstanceMetrics "1" (statsReport (instanceLines.map Line.key) (.int 7))
        MetricStore.empty).1 =
      generateInstanceMetrics "1" (statsReport (instanceLines.map Line.key) (.int 7))
        MetricStore.empty :=
  export_repeat_unchanged "1"
    (fun _ hl => ⟨.int 7, getItem_report_of_mem _ (List.mem_map_of_mem _ hl)⟩)
    (MetricStore.empty_fits moduleMetrics)

end Complete

/-- Complete exports of two instances commute: each writes only under its own label, and what
it writes there does not depend on the store. -/
theorem generateInstanceMetrics_comm {sid' : String} {metrics' : PyVal} (hne : sid ≠ sid')
    (hKeys : ∀ l ∈ instanceLines, ∃ v, getItem metrics l.key = .ok v)
    (hKeys' : ∀ l ∈ instanceLines, ∃ v, getItem metrics' l.key = .ok v)
    (hs : s.Fits moduleMetrics) :
    (generateInstanceMetrics sid metrics (generateInstanceMetrics sid' metrics' s).1).1 =
      (generateInstanceMetrics sid' metrics' (generateInstanceMetrics sid metrics s).1).1 := by
  have hFits : (generateInstanceMetrics sid metrics s).1.Fits moduleMetrics :=
    generateInstanceMetrics_fits sid metrics hs
  have hFits' : (generateInstanceMetrics sid' metrics' s).1.Fits moduleMetrics :=
    generateInstanceMetrics_fits sid' metrics' hs
  refine MetricStore.ext fun n k => ?_
  by_cases hn : n ∈ moduleMetrics.map Metric.name
  · obtain ⟨m, hm, rfl⟩ := List.mem_map.mp hn
    by_cases hk : k = sid
    · subst hk
      rw [generateInstanceMetrics_children_other sid' (.inl hne),
        generateInstanceMetrics_children_eq k hKeys hFits' hs hm]
    · by_cases hk' : k = sid'
      · subst hk'
        rw [generateInstanceMetrics_children_other sid (.inl (Ne.symm hne)),
          generateInstanceMetrics_children_eq k hKeys' hFits hs hm]
      · rw [generateInstanceMetrics_children_other sid (.inl hk),
          generateInstanceMetrics_children_other sid' (.inl hk'),
          generateInstanceMetrics_children_other sid' (.inl hk'),
          generateInstanceMetrics_children_other sid (.inl hk)]
  · rw [generateInstanceMetrics_children_other sid (.inr hn),
      generateInstanceMetrics_children_other sid' (.inr hn),
      generateInstanceMetrics_children_other sid' (.inr hn),
      generateInstanceMetrics_children_other sid (.inr hn)]

section Missing

variable (hs : s.Fits moduleMetrics) {pre post : List Line} {l : Line} {e : StatsError}
  (hSplit : instanceLines = pre ++ l :: post)
  (hPre : ∀ l' ∈ pre, ∃ v, getItem metrics l'.key = .ok v)
include hs hSplit hPre

/-- The statements before `l` in the code's order, with their statistics present, complete and
export them. -/
theorem runLines_prefix_ok :
    (runLines sid metrics pre s).2 = none ∧
      (∀ l' ∈ pre, (runLines sid metrics pre s).1.sample l'.metric sid l'.target =
        (getItem metrics l'.key).toOption) ∧
      (runLines sid metrics pre s).1.Fits moduleMetrics := by
  have hValid : ∀ l' ∈ pre, l'.metric ∈ moduleMetrics ∧ l'.valid := fun l' hl' =>
    instanceLines_valid l' (hSplit ▸ List.mem_append_left _ hl')
  have hDistinct : (pre.map fun l' => (l'.metric.name, l'.target)).Nodup := by
    have h := instanceLines_targets_nodup
    rw [hSplit, List.map_append] at h
    exact h.of_append_left
  exact ⟨(runLines_ok hs moduleMetrics_names_nodup hValid hPre hDistinct).1,
    (runLines_ok hs moduleMetrics_names_nodup hValid hPre hDistinct).2,
    runLines_fits hs moduleMetrics_names_nodup fun l' hl' => (hValid l' hl').1⟩

/-- With `l`'s statistic not readable, the export stops at `l`, with the store `labels()` left
after the statements before it. -/
theorem generateInstanceMetrics_eq_of_missing (hMissing : getItem metrics l.key = .error e) :
    generateInstanceMetrics sid metrics s =
      (((runLines sid metrics pre s).1.labels l.metric sid).1, some e) := by
  obtain ⟨hNone, -, hFits⟩ := runLines_prefix_ok sid hs hSplit hPre
  have hLast := instanceLines_valid l (hSplit ▸ List.mem_append_right _ (.head _))
  rw [generateInstanceMetrics, hSplit, runLines_append_of_none hNone, runLines,
    execLine_error sid hFits moduleMetrics_names_nodup hLast.1 hLast.2 hMissing]

/-- With a statistic missing, `_generate_instance_metrics` raises at the first statement, in the
code's order, whose statistic cannot be read, with that statement's error. The statements before
it have exported their statistics, the failing statement's `labels()` has left a child for the
instance, and the metrics named only by later statements, like every other label, are as they
were. -/
theorem first_missing_statistic_raised (hMissing : getItem metrics l.key = .error e) :
    (generateInstanceMetrics sid metrics s).2 = some e ∧
      (∀ l' ∈ pre, (generateInstanceMetrics sid metrics s).1.sample l'.metric sid l'.target =
        (getItem metrics l'.key).toOption) ∧
      ((generateInstanceMetrics sid metrics s).1.children l.metric.name sid).isSome ∧
      ∀ n k, (k ≠ sid ∨ ∀ l' ∈ pre ++ [l], n ≠ l'.metric.name) →
        (generateInstanceMetrics sid metrics s).1.children n k = s.children n k := by
  have hSample := (runLines_prefix_ok sid hs hSplit hPre).2.1
  rw [generateInstanceMetrics_eq_of_missing sid hs hSplit hPre hMissing]
  refine ⟨rfl, fun l' hl' => ?_, ?_, fun n k h => ?_⟩
  · obtain ⟨v, hv⟩ := hPre l' hl'
    have hSample := hSample l' hl'
    rw [hv] at hSample ⊢
    exact MetricStore.labels_sample_keep hSample
  · simp [MetricStore.labels_children]
  · have hOther : ¬(n = l.metric.name ∧ k = sid) := fun ⟨hn, hk⟩ =>
      h.elim (· hk) fun hAll => hAll l (List.mem_append_right _ (.head _)) hn
    rw [MetricStore.labels_children, if_neg hOther]
    refine runLines_children_other fun l' hl' => ?_
    rcases h with hk | hAll
    · exact .inr hk
    · exact .inl (hAll l' (List.mem_append_left _ hl'))

omit hs hSplit hPre in
theorem udp_missing_raises_key_error :
    (generateInstanceMetrics "1"
      (statsReport ((instanceLines.map Line.key).erase "request.udp") (.int 7))
      MetricStore.empty).2 = some (.key "request.udp") :=
  (first_missing_statistic_raised "1" (MetricStore.empty_fits moduleMetrics)
    (show instanceLines = (latencyLines ++ counterLines.take 2) ++
      ⟨kresdRequestUdp, .value, "request.udp"⟩ :: counterLines.drop 3 from rfl)
    (fun l' hl' => ⟨.int 7, getItem_report_of_mem _ (by revert l'; decide)⟩)
    (getItem_report_of_not_mem _ (by decide))).1

/-- A statistic missing on an instance's first export is shown as 0. When no statement before
the failing one names its metric and the instance had no child of it, the failing statement's
`labels()` creates the child, with its zeros, before `metrics[...]` raises; the exposition then
shows 0 where the statistic is missing. -/
theorem missing_statistic_shown_as_zero (hMissing : getItem metrics l.key = .error e)
    (hNew : s.children l.metric.name sid = none)
    (hFirst : ∀ l' ∈ pre, l'.metric.name ≠ l.metric.name) :
    (generateInstanceMetrics sid metrics s).1.sample l.metric sid l.target = some (.int 0) := by
  have hValid := (instanceLines_valid l (hSplit ▸ List.mem_append_right _ (.head _))).2
  have hBefore : (runLines sid metrics pre s).1.children l.metric.name sid = none :=
    (runLines_children_other fun l' hl' => .inl (hFirst l' hl').symm).trans hNew
  rw [generateInstanceMetrics_eq_of_missing sid hs hSplit hPre hMissing]
  simp only [MetricStore.sample, MetricStore.labels, hBefore, MetricStore.put_children, and_self,
    if_true, Option.some_bind]
  exact Metric.fresh_read hValid

omit hs hSplit hPre in
theorem udp_missing_shown_as_zero :
    (generateInstanceMetrics "1"
      (statsReport ((instanceLines.map Line.key).erase "request.udp") (.int 7))
      MetricStore.empty).1.sample kresdRequestUdp "1" .value = some (.int 0) :=
  missing_statistic_shown_as_zero "1" (MetricStore.empty_fits moduleMetrics)
    (show instanceLines = (latencyLines ++ counterLines.take 2) ++
      ⟨kresdRequestUdp, .value, "request.udp"⟩ :: counterLines.drop 3 from rfl)
    (fun l' hl' => ⟨.int 7, getItem_report_of_mem _ (by revert l'; decide)⟩)
    (getItem_report_of_not_mem _ (by decide)) rfl (by decide)

end Missing

end Instance

end KnotSchema
