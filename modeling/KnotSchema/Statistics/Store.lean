import KnotSchema.Python.Value

/-! The Prometheus export of `statistics.py`. `_generate_instance_metrics` copies one kresd
instance's statistics into the module's metric objects, which live in the process-wide
default registry, and `collect` does so for every instance the manager answers for. The
registry is a store of labelled children per metric name. A Python statement that raises keeps
what it did before the exception: `labels()` has already created the child when
`metrics[...]` raises, and the instances exported before a failing one stay exported. -/
namespace KnotSchema

/-- The exceptions `statistics.py` raises or lets through: `KeyError` for a statistic kresd did
not report, `TypeError` when the parsed answer is not a map, `IndexError` and
`AttributeError` from reaching into a metric child, and what `json.loads` raises. -/
inductive StatsError where
  | key (key : String)
  | type (msg : String)
  | index (msg : String)
  | attribute (msg : String)
  | decode (msg : String)
  deriving Repr, DecidableEq

/-- A metric object's class: a labelled `Counter`, or a labelled `Histogram` with its bucket
upper bounds as written. -/
inductive MetricKind where
  | counter
  | histogram (buckets : List String)
  deriving Repr, DecidableEq

/-- A module-level metric object: its name and class. Its help text only reaches the
exposition, which is not modelled. -/
structure Metric where
  name : String
  kind : MetricKind
  deriving Repr, DecidableEq

/-- A labelled child: a counter's `_value`, or a histogram's `_buckets`, one value each. -/
inductive Child where
  | counter (value : PyVal)
  | histogram (buckets : List PyVal)

/-- The child `labels()` creates: `0.0`, in every bucket for a histogram. -/
def Metric.fresh (m : Metric) : Child :=
  match m.kind with
  | .counter => .counter (.int 0)
  | .histogram bounds => .histogram (bounds.map fun _ => .int 0)

/-- Where a statement writes in a child: `_value`, or `_buckets[i]`. -/
inductive Target where
  | value
  | bucket (i : Nat)
  deriving Repr, DecidableEq

/-- `child._value` or `child._buckets[i]`, reached before `metrics[...]` is read: how the child
changes when a value is written there, or the exception reaching it raises. -/
def Child.select : Child → Target → Except StatsError (PyVal → Child)
  | .counter _, .value => .ok .counter
  | .histogram bs, .bucket i =>
      if i < bs.length then .ok fun v => .histogram (bs.set i v)
      else .error (.index "list index out of range")
  | .counter _, .bucket _ => .error (.attribute "'Counter' object has no attribute '_buckets'")
  | .histogram _, .value => .error (.attribute "'Histogram' object has no attribute '_value'")

/-- What a child exports for a target: the counter's value or one bucket's. -/
def Child.read : Child → Target → Option PyVal
  | .counter v, .value => some v
  | .histogram bs, .bucket i => bs[i]?
  | _, _ => none

/-- The default registry: for each metric name, its children by `instance_id` label, and what
each child holds. The samples are all the store keeps: the order in which children were
created, which the exposition lists them in, and each child's `_created` timestamp are not
modelled, so two stores are equal when they hold the same samples. -/
structure MetricStore where
  children : String → String → Option Child

/-- The registry before any export: no children. -/
def MetricStore.empty : MetricStore := ⟨fun _ _ => none⟩

theorem MetricStore.ext {s s' : MetricStore} (h : ∀ n k, s.children n k = s'.children n k) :
    s = s' := by
  cases s
  cases s'
  exact congrArg MetricStore.mk (funext fun n => funext (h n))

namespace MetricStore

/-- The store with the child of `m` under `label` set to `ch`. -/
def put (s : MetricStore) (m : Metric) (label : String) (ch : Child) : MetricStore :=
  ⟨Function.update s.children m.name (Function.update (s.children m.name) label (some ch))⟩

/-- `m.labels(label)`: the existing child, or a fresh one, which joins the family. -/
def labels (s : MetricStore) (m : Metric) (label : String) : MetricStore × Child :=
  match s.children m.name label with
  | some ch => (s, ch)
  | none => (s.put m label m.fresh, m.fresh)

/-- What the exposition shows for a target of `m` under `label`, when the child exists. -/
def sample (s : MetricStore) (m : Metric) (label : String) (t : Target) : Option PyVal :=
  (s.children m.name label).bind fun ch => ch.read t

theorem put_children (s : MetricStore) (m : Metric) (label : String) (ch : Child) (n k : String) :
    (s.put m label ch).children n k =
      if n = m.name ∧ k = label then some ch else s.children n k := by
  by_cases hn : n = m.name <;> by_cases hk : k = label <;> simp [put, hn, hk]

/-- `labels()` changes at most the child it returns, and only by creating it. -/
theorem labels_children (s : MetricStore) (m : Metric) (label n k : String) :
    (s.labels m label).1.children n k =
      if n = m.name ∧ k = label then some (s.labels m label).2 else s.children n k := by
  unfold labels
  cases h : s.children m.name label with
  | none => exact put_children s m label _ n k
  | some ch =>
      split_ifs with hnk
      · obtain ⟨rfl, rfl⟩ := hnk
        exact h
      · rfl

theorem labels_of_some {s : MetricStore} {m : Metric} {label : String} {ch : Child}
    (h : s.children m.name label = some ch) : s.labels m label = (s, ch) := by
  simp [labels, h]

end MetricStore

/-- `metrics[key]` on what `json.loads` returned: a map's value for the string key, else
`KeyError`; the other JSON values are not subscripted by a string. -/
def getItem (metrics : PyVal) (key : String) : Except StatsError PyVal :=
  match metrics with
  | .dict es =>
      match es.find? fun e => e.1.pyEq (.str key) with
      | some e => .ok e.2
      | none => .error (.key key)
  | .list _ => .error (.type "list indices must be integers or slices, not str")
  | .str _ => .error (.type "string indices must be integers")
  | v => .error (.type ("'" ++ v.typeName ++ "' object is not subscriptable"))

/-- What `json.loads` returns for a JSON object reporting each of `keys` as `v`. -/
def statsReport (keys : List String) (v : PyVal) : PyVal := .dict (keys.map fun k => (.str k, v))

theorem getItem_report_of_mem {keys : List String} {key : String} (v : PyVal) (h : key ∈ keys) :
    getItem (statsReport keys v) key = .ok v := by
  have hFound : ((keys.map fun k => (PyVal.str k, v)).find? fun e => e.1.pyEq (.str key)).isSome :=
    List.find?_isSome.mpr ⟨(.str key, v), List.mem_map_of_mem _ h, beq_self_eq_true key⟩
  obtain ⟨e, he⟩ := Option.isSome_iff_exists.mp hFound
  obtain ⟨k, -, rfl⟩ := List.mem_map.mp (List.mem_of_find?_eq_some he)
  simp only [getItem, statsReport, he]

theorem getItem_report_of_not_mem {keys : List String} {key : String} (v : PyVal)
    (h : key ∉ keys) : getItem (statsReport keys v) key = .error (.key key) := by
  have hNone : ((keys.map fun k => (PyVal.str k, v)).find? fun e => e.1.pyEq (.str key)) = none :=
    List.find?_eq_none.mpr fun e he => by
      obtain ⟨k, hk, rfl⟩ := List.mem_map.mp he
      exact fun hEq => h (beq_iff_eq.mp hEq ▸ hk)
  simp only [getItem, statsReport, hNone]

/-- One statement `metric.labels(sid)<target>.set(metrics[key])`. -/
structure Line where
  metric : Metric
  target : Target
  key : String
  deriving DecidableEq

/-- A child has the shape its metric gives its children: a counter's value, or one value per
bucket bound. -/
def Child.Fits (ch : Child) (m : Metric) : Prop :=
  match ch with
  | .counter _ => m.kind = .counter
  | .histogram bs => ∃ bounds, m.kind = .histogram bounds ∧ bs.length = bounds.length

/-- A statement reaches what its metric's children have: the `_value` of a counter, or a bucket
a histogram has. -/
def Line.valid (l : Line) : Bool :=
  match l.metric.kind, l.target with
  | .counter, .value => true
  | .histogram bounds, .bucket i => decide (i < bounds.length)
  | _, _ => false

theorem Metric.fresh_fits (m : Metric) : m.fresh.Fits m := by
  unfold Metric.fresh
  cases hk : m.kind with
  | counter => exact hk
  | histogram bounds => exact ⟨bounds, hk, by simp⟩

/-- A fresh child exports 0 at every target a statement can reach. -/
theorem Metric.fresh_read {l : Line} (h : l.valid) :
    l.metric.fresh.read l.target = some (.int 0) := by
  unfold Line.valid at h
  unfold Metric.fresh
  split at h
  · rename_i hKind hTarget
    simp [hKind, hTarget, Child.read]
  · rename_i bounds i hKind hTarget
    simp only [decide_eq_true_eq] at h
    simp [hKind, hTarget, Child.read, List.getElem?_replicate, h]
  · cases h

/-- On a child of its metric's shape, a valid statement reaches its target. -/
theorem Child.select_of_valid {ch : Child} {l : Line} (hFits : ch.Fits l.metric)
    (hValid : l.valid) : ∃ write, ch.select l.target = .ok write := by
  unfold Line.valid at hValid
  split at hValid
  · rename_i hKind hTarget
    cases ch with
    | counter => exact ⟨.counter, by simp [select, hTarget]⟩
    | histogram => obtain ⟨_, h, -⟩ := hFits; simp [hKind] at h
  · rename_i bounds i hKind hTarget
    cases ch with
    | counter => simp [Child.Fits, hKind] at hFits
    | histogram bs =>
        obtain ⟨bounds', hKind', hLen⟩ := hFits
        rw [hKind] at hKind'
        cases hKind'
        have hi : i < bs.length := by simpa [hLen] using hValid
        exact ⟨fun v => .histogram (bs.set i v), by simp [select, hTarget, hi]⟩
  · cases hValid

section Select

variable {ch : Child} {t : Target} {write : PyVal → Child} (h : ch.select t = .ok write)
include h

/-- Writing through a reached target keeps the child's shape. -/
theorem Child.select_fits {m : Metric} (hFits : ch.Fits m) (v : PyVal) : (write v).Fits m := by
  cases ch <;> cases t <;> simp only [select] at h <;> (try split_ifs at h) <;> cases h
  · exact hFits
  · obtain ⟨bounds, hKind, hLen⟩ := hFits
    exact ⟨bounds, hKind, by simpa using hLen⟩

/-- The child exports the value written at the reached target. -/
theorem Child.select_read (v : PyVal) : (write v).read t = some v := by
  cases ch <;> cases t <;> simp only [select] at h <;> (try split_ifs at h with hi) <;> cases h
  · rfl
  · simp [read, hi]

/-- Writing through a reached target leaves every other target of the child as it was. -/
theorem Child.select_frame (v : PyVal) (t' : Target) (ht : t' ≠ t) :
    (write v).read t' = ch.read t' := by
  cases ch <;> cases t <;> simp only [select] at h <;> (try split_ifs at h) <;> cases h
  · cases t' <;> simp_all [read]
  · cases t' with
    | value => rfl
    | bucket j => simp [read, List.getElem?_set_ne (fun hj : _ = j => ht (hj ▸ rfl))]

end Select

/-- A child of its metric's shape exports only at targets a statement of that metric reaches. -/
theorem Child.valid_of_read {c : Child} {m : Metric} {t : Target} (hc : c.Fits m) (key : String)
    (h : (c.read t).isSome) : Line.valid ⟨m, t, key⟩ := by
  cases c with
  | counter v =>
      cases t with
      | value =>
          unfold Line.valid
          rw [show m.kind = .counter from hc]
      | bucket i => cases h
  | histogram bs =>
      cases t with
      | value => cases h
      | bucket i =>
          obtain ⟨bounds, hKind, hLen⟩ := hc
          have hi : i < bs.length := by
            by_contra hi
            simp [Child.read, List.getElem?_eq_none_iff.mpr (Nat.le_of_not_lt hi)] at h
          simpa [Line.valid, hKind, ← hLen] using hi

/-- Two children of a metric's shape that export the same value at every target are equal. -/
theorem Child.eq_of_read {c c' : Child} {m : Metric} (hc : c.Fits m) (hc' : c'.Fits m)
    (h : ∀ t, c.read t = c'.read t) : c = c' := by
  cases c with
  | counter v =>
      cases c' with
      | counter v' => simpa [Child.read] using h .value
      | histogram bs' =>
          obtain ⟨_, hKind, -⟩ := hc'
          exact nomatch (hc : m.kind = .counter).symm.trans hKind
  | histogram bs =>
      cases c' with
      | counter v' =>
          obtain ⟨_, hKind, -⟩ := hc
          exact nomatch (hc' : m.kind = .counter).symm.trans hKind
      | histogram bs' => exact congrArg Child.histogram (List.ext_getElem? fun i => h (.bucket i))

/-- One statement, in Python's evaluation order: `labels()` creates the child, the attribute or
index is reached, `metrics[key]` is read, and the value is written. The store comes back with
the exception that stopped the statement, if any. -/
def execLine (sid : String) (metrics : PyVal) (l : Line) (s : MetricStore) :
    MetricStore × Option StatsError :=
  let child := s.labels l.metric sid
  match child.2.select l.target with
  | .error e => (child.1, some e)
  | .ok write =>
      match getItem metrics l.key with
      | .error e => (child.1, some e)
      | .ok v => (child.1.put l.metric sid (write v), none)

/-- Statements one after another, up to the first exception. -/
def runLines (sid : String) (metrics : PyVal) :
    List Line → MetricStore → MetricStore × Option StatsError
  | [], s => (s, none)
  | l :: ls, s =>
      match execLine sid metrics l s with
      | (s', none) => runLines sid metrics ls s'
      | (s', some e) => (s', some e)

/-- `KRESD_RESPONSE_LATENCY`: a histogram with nine buckets, the last one unbounded. -/
def kresdResponseLatency : Metric :=
  ⟨"kresd_response_latency",
    .histogram ["0.001", "0.01", "0.05", "0.1", "0.25", "0.5", "1.0", "1.5", "inf"]⟩

def kresdRequestTotal : Metric := ⟨"kresd_request_total", .counter⟩
def kresdRequestInternal : Metric := ⟨"kresd_request_internal", .counter⟩
def kresdRequestUdp : Metric := ⟨"kresd_request_udp", .counter⟩
def kresdRequestTcp : Metric := ⟨"kresd_request_tcp", .counter⟩
def kresdRequestDot : Metric := ⟨"kresd_request_dot", .counter⟩
def kresdRequestDoh : Metric := ⟨"kresd_request_doh", .counter⟩
def kresdRequestXdp : Metric := ⟨"kresd_request_xdp", .counter⟩
def kresdAnswerTotal : Metric := ⟨"kresd_answer_total", .counter⟩
def kresdAnswerCached : Metric := ⟨"kresd_answer_cached", .counter⟩
def kresdAnswerRcodeNoerror : Metric := ⟨"kresd_answer_rcode_noerror", .counter⟩
def kresdAnswerRcodeNodata : Metric := ⟨"kresd_answer_rcode_nodata", .counter⟩
def kresdAnswerRcodeNxdomain : Metric := ⟨"kresd_answer_rcode_nxdomain", .counter⟩
def kresdAnswerRcodeServfail : Metric := ⟨"kresd_answer_rcode_servfail", .counter⟩
def kresdAnswerFlagAa : Metric := ⟨"kresd_answer_flag_aa", .counter⟩
def kresdAnswerFlagTc : Metric := ⟨"kresd_answer_flag_tc", .counter⟩
def kresdAnswerFlagRa : Metric := ⟨"kresd_answer_flag_ra", .counter⟩
def kresdAnswerFlagRd : Metric := ⟨"kresd_answer_flags_rd", .counter⟩
def kresdAnswerFlagAd : Metric := ⟨"kresd_answer_flag_ad", .counter⟩
def kresdAnswerFlagCd : Metric := ⟨"kresd_answer_flag_cd", .counter⟩
def kresdAnswerFlagDo : Metric := ⟨"kresd_answer_flag_do", .counter⟩
def kresdAnswerFlagEdns0 : Metric := ⟨"kresd_answer_flag_edns0", .counter⟩
def kresdQueryEdns : Metric := ⟨"kresd_query_edns", .counter⟩
def kresdQueryDnssec : Metric := ⟨"kresd_query_dnssec", .counter⟩

/-- The metric objects the module defines. -/
def moduleMetrics : List Metric :=
  [kresdResponseLatency, kresdRequestTotal, kresdRequestInternal, kresdRequestUdp,
    kresdRequestTcp, kresdRequestDot, kresdRequestDoh, kresdRequestXdp, kresdAnswerTotal,
    kresdAnswerCached, kresdAnswerRcodeNoerror, kresdAnswerRcodeNodata,
    kresdAnswerRcodeNxdomain, kresdAnswerRcodeServfail, kresdAnswerFlagAa, kresdAnswerFlagTc,
    kresdAnswerFlagRa, kresdAnswerFlagRd, kresdAnswerFlagAd, kresdAnswerFlagCd,
    kresdAnswerFlagDo, kresdAnswerFlagEdns0, kresdQueryEdns, kresdQueryDnssec]

/-- The durations the latency loop enumerates, one per bucket. -/
def latencyDurations : List String :=
  ["1ms", "10ms", "50ms", "100ms", "250ms", "500ms", "1000ms", "1500ms", "slow"]

/-- The latency loop: bucket `i` takes `answer.<duration i>`. -/
def latencyLines : List Line :=
  latencyDurations.enum.map fun p => ⟨kresdResponseLatency, .bucket p.1, "answer." ++ p.2⟩

/-- The counter statements, in the order `_generate_instance_metrics` makes them. -/
def counterLines : List Line :=
  [⟨kresdRequestTotal, .value, "request.total"⟩,
    ⟨kresdRequestInternal, .value, "request.internal"⟩,
    ⟨kresdRequestUdp, .value, "request.udp"⟩,
    ⟨kresdRequestTcp, .value, "request.tcp"⟩,
    ⟨kresdRequestDot, .value, "request.dot"⟩,
    ⟨kresdRequestDoh, .value, "request.doh"⟩,
    ⟨kresdRequestXdp, .value, "request.xdp"⟩,
    ⟨kresdAnswerTotal, .value, "answer.total"⟩,
    ⟨kresdAnswerCached, .value, "answer.cached"⟩,
    ⟨kresdAnswerRcodeNoerror, .value, "answer.noerror"⟩,
    ⟨kresdAnswerRcodeNodata, .value, "answer.nodata"⟩,
    ⟨kresdAnswerRcodeNxdomain, .value, "answer.nxdomain"⟩,
    ⟨kresdAnswerRcodeServfail, .value, "answer.servfail"⟩,
    ⟨kresdAnswerFlagAa, .value, "answer.aa"⟩,
    ⟨kresdAnswerFlagTc, .value, "answer.tc"⟩,
    ⟨kresdAnswerFlagRa, .value, "answer.ra"⟩,
    ⟨kresdAnswerFlagRd, .value, "answer.rd"⟩,
    ⟨kresdAnswerFlagAd, .value, "answer.ad"⟩,
    ⟨kresdAnswerFlagCd, .value, "answer.cd"⟩,
    ⟨kresdAnswerFlagDo, .value, "answer.do"⟩,
    ⟨kresdAnswerFlagEdns0, .value, "answer.edns0"⟩,
    ⟨kresdQueryEdns, .value, "query.edns"⟩,
    ⟨kresdQueryDnssec, .value, "query.dnssec"⟩]

/-- Every statement of `_generate_instance_metrics`, in order. -/
def instanceLines : List Line := latencyLines ++ counterLines

/-- `_generate_instance_metrics(instance_id, metrics)`, with `sid = str(instance_id)`. -/
def generateInstanceMetrics (sid : String) (metrics : PyVal) (s : MetricStore) :
    MetricStore × Option StatsError :=
  runLines sid metrics instanceLines s

/-- `ON_DEMAND_STATS_QUERY`, the command `collect` sends to every instance. -/
def onDemandStatsQuery : String := "collect_lazy_statistics()"

/-- `raw[1:-1]`: the answer without its first and last character. -/
def stripEnds (raw : String) : String := ⟨(raw.toList.drop 1).dropLast⟩

/-- The loop of `collect` over the instances' answers: each answer parsed by `json.loads` and
exported under the instance's label, up to the first exception. -/
def collectAnswers {ι : Type} (label : ι → String)
    (loads : String → Except StatsError PyVal) :
    List (ι × String) → MetricStore → MetricStore × Option StatsError
  | [], s => (s, none)
  | (id, raw) :: rest, s =>
      match loads (stripEnds raw) with
      | .error e => (s, some e)
      | .ok metrics =>
          match generateInstanceMetrics (label id) metrics s with
          | (s', none) => collectAnswers label loads rest s'
          | (s', some e) => (s', some e)

/-- `collect` up to its `return exposition.generate_latest()`: the query sent to every
instance, the manager's answers as `command_all` gives them, here a total function of the query
(its own failures are not modelled), and the loop exporting them. The rendering of the store by
`generate_latest()`, and the `float()` it applies to each sample, which fails on a statistic
that is not a number, are not modelled. -/
def collect {ι : Type} (commandAll : String → List (ι × String)) (label : ι → String)
    (loads : String → Except StatsError PyVal) (s : MetricStore) :
    MetricStore × Option StatsError :=
  collectAnswers label loads (commandAll onDemandStatsQuery) s

end KnotSchema
