import EvalOps.Aggregate
import EvalOps.Lib.Interpolation
import Mathlib.Data.Prod.Lex

/-!
# `EvalOps.Stats`: paired observations and the bootstrap

`stats.py`. `pairedObservations` matches the baseline and the candidate runs by case and repeat
and projects each metric onto a pair of series. `pairedBootstrapCi` resamples their differences.
`buildStatisticalEvidence` packages the summaries and the interval of each metric.

`random.Random(seed)` is a stream of indices: the `k`-th `randrange(n)` of a generator depends on
its seed, on `n` and on `k`. The square root of `statistics.stdev` is not a rational function. Both
come from a `Runtime`.
-/

set_option autoImplicit false

namespace EvalOps

/-- The parts of the standard library that the statistics take as they are. -/
structure Runtime where
  /-- `random.Random(seed)`: the index of the `k`-th `randrange(n)`. -/
  randrange : (seed : ℤ) → (n k : ℕ) → ℕ
  randrange_lt : ∀ (seed : ℤ) (n k : ℕ), 0 < n → randrange seed n k < n
  sqrt : ℚ → ℚ
  sqrt_nonneg : ∀ x, 0 ≤ sqrt x

/-- The keyword arguments of `build_statistical_evidence`. -/
structure BootstrapOptions where
  confidenceLevel : ℚ
  resamples : ℤ
  seed : ℤ

/-- `DEFAULT_CONFIDENCE_LEVEL`, `DEFAULT_RESAMPLES` and `DEFAULT_SEED`. -/
def BootstrapOptions.default : BootstrapOptions where
  confidenceLevel := 95 / 100
  resamples := 2000
  seed := 0x5EED0501

/-- `MIN_PAIRS_FOR_CI`. -/
def minPairsForCi : ℕ := 3

/-- `BOOTSTRAP_METHOD`. -/
def bootstrapMethod : String := "paired_bootstrap_percentile"

/-! ### Descriptive summaries -/

/-- `statistics.fmean`. -/
def mean (values : List ℚ) : ℚ := values.sum / values.length

/-- `statistics.median`. -/
def median (values : List ℚ) : ℚ :=
  let ordered := Sorting.sorted values
  let half := ordered.length / 2
  if ordered.length % 2 = 1 then ordered.getD half 0
  else (ordered.getD (half - 1) 0 + ordered.getD half 0) / 2

/-- `statistics.stdev`: the sample standard deviation. -/
def stdev (rt : Runtime) (values : List ℚ) : ℚ :=
  rt.sqrt ((values.map fun x => (x - mean values) ^ 2).sum / ((values.length : ℚ) - 1))

/-- `summarize`. -/
def summarize (rt : Runtime) (values : List ℚ) : SampleSummary :=
  if values.length = 0 then ⟨0, 0, 0, 0, nonneg_zero⟩
  else
    { n := values.length
      mean := mean values
      median := median values
      stdev := if 2 ≤ values.length then stdev rt values else 0
      stdev_nonneg := by
        split
        · exact rt.sqrt_nonneg _
        · exact le_refl 0 }

/-! ### Paired observations -/

/-- `PairedSeries`: the aligned observations of one metric. -/
structure PairedSeries where
  metric : String
  kind : MetricKind
  baseline : List ℚ
  candidate : List ℚ
  matchedPairs : ℕ
  comparablePairs : ℕ
  droppedProviderFailures : ℕ
  unmatchedRuns : ℕ

/-- A pair key: the case and the repeat, compared in this order. -/
abbrev PairKey := EntityId ×ₗ ℕ

/-- `_pair_key`. -/
def pairKey (run : EvaluationRun) : PairKey := toLex (run.caseId, run.repeatIndex)

/-- One turn of `_runs_by_key`'s loop. -/
def addRun (versionId : EntityId) (byKey : Dict PairKey EvaluationRun) (run : EvaluationRun) :
    Py (Dict PairKey EvaluationRun) :=
  if run.systemVersionId ≠ versionId then pure byKey
  else if byKey.contains (pairKey run) then
    throw (.config ("version " ++ PyText.repr versionId.text ++
      " has more than one run for case " ++ PyText.repr run.caseId.text ++
      s!" repeat {run.repeatIndex}"))
  else pure (byKey.insert (pairKey run) run)

/-- `_runs_by_key`. -/
def runsByKey (runs : List EvaluationRun) (versionId : EntityId) :
    Py (Dict PairKey EvaluationRun) :=
  runs.foldlM (addRun versionId) Dict.empty

/-- `_success_obs`. -/
def successObs (run : EvaluationRun) : ℚ := if run.error.isNone then 1 else 0

/-- The lookup that `_pass_obs` and `_score_obs` share: the run's score from one evaluator. -/
def scoreFor (run : EvaluationRun) (caseResults : Dict EntityId CaseResult)
    (evaluatorName : String) : Py EvaluatorScore :=
  match caseResults.get? run.id with
  | none =>
      throw (.config ("successful run " ++ PyText.repr run.id.text ++ " has no case result"))
  | some caseResult =>
      match caseResult.scores.find? fun s => decide (s.evaluator.text = evaluatorName) with
      | none =>
          throw (.config ("successful run " ++ PyText.repr run.id.text ++ " is missing the " ++
            PyText.repr evaluatorName ++ " evaluator score"))
      | some score => pure score

/-- `_pass_obs`. -/
def passObs (run : EvaluationRun) (caseResults : Dict EntityId CaseResult)
    (evaluatorName : String) : Py ℚ := do
  if run.error.isSome then pure 0
  else
    let score ← scoreFor run caseResults evaluatorName
    pure (if score.passed = some true then 1 else 0)

/-- `_score_obs`. -/
def scoreObs (run : EvaluationRun) (caseResults : Dict EntityId CaseResult)
    (evaluatorName : String) : Py ℚ := do
  if run.error.isSome then pure 0
  else
    let score ← scoreFor run caseResults evaluatorName
    pure score.score

/-- `by_key[k]`. -/
def runAt (byKey : Dict PairKey EvaluationRun) (key : PairKey) : Py EvaluationRun :=
  match byKey.get? key with
  | some run => pure run
  | none =>
      let (caseId, repeatIndex) := ofLex key
      throw ⟨.keyError, "(" ++ PyText.repr caseId.text ++ s!", {repeatIndex})"⟩

/-- `_series` for a metric to which every matched pair contributes. -/
def fullSeries (metric : String) (kind : MetricKind) (baseline candidate : List ℚ)
    (matched unmatched : ℕ) : PairedSeries where
  metric := metric
  kind := kind
  baseline := baseline
  candidate := candidate
  matchedPairs := matched
  comparablePairs := matched
  droppedProviderFailures := 0
  unmatchedRuns := unmatched

/-- The two series of one evaluator. -/
def evaluatorSeries (pairs : List (EvaluationRun × EvaluationRun))
    (caseResults : Dict EntityId CaseResult) (matched unmatched : ℕ) (name : String) :
    Py (List PairedSeries) := do
  let passBaseline ← pairs.mapM fun p => passObs p.1 caseResults name
  let passCandidate ← pairs.mapM fun p => passObs p.2 caseResults name
  let scoreBaseline ← pairs.mapM fun p => scoreObs p.1 caseResults name
  let scoreCandidate ← pairs.mapM fun p => scoreObs p.2 caseResults name
  pure
    [fullSeries (passRateMetric name) .binary passBaseline passCandidate matched unmatched,
     fullSeries (meanScoreMetric name) .continuous scoreBaseline scoreCandidate matched
      unmatched]

/-- The latency series: a pair is dropped when either side failed. -/
def latencySeries (pairs : List (EvaluationRun × EvaluationRun)) (matched unmatched : ℕ) :
    PairedSeries :=
  let bothOk := pairs.filter fun p => p.1.error.isNone && p.2.error.isNone
  { metric := "latency_ms.mean"
    kind := .continuous
    baseline := bothOk.map fun p => p.1.usage.latencyMs
    candidate := bothOk.map fun p => p.2.usage.latencyMs
    matchedPairs := matched
    comparablePairs := bothOk.length
    droppedProviderFailures := matched - bothOk.length
    unmatchedRuns := unmatched }

/-- The series of every metric over the matched pairs, in the order of the source. -/
def allSeries (pairs : List (EvaluationRun × EvaluationRun))
    (caseResults : Dict EntityId CaseResult) (matched unmatched : ℕ) (names : List String) :
    Py (List PairedSeries) := do
  let success := fullSeries "success_rate" .binary (pairs.map fun p => successObs p.1)
    (pairs.map fun p => successObs p.2) matched unmatched
  let perEvaluator ← names.mapM (evaluatorSeries pairs caseResults matched unmatched)
  let cost := fullSeries "cost_usd.mean" .continuous (pairs.map fun p => p.1.usage.costUsd)
    (pairs.map fun p => p.2.usage.costUsd) matched unmatched
  pure (success :: perEvaluator.flatten ++ [latencySeries pairs matched unmatched, cost])

/-- `paired_observations`. -/
def pairedObservations (experiment : Experiment) (outcome : RunOutcome)
    (evaluatorNames : List String) : Py (Dict String PairedSeries) := do
  if ¬evaluatorNames.Nodup then
    throw (.config ("evaluator_names contains duplicates: " ++
      PyText.reprList (Sorting.sorted evaluatorNames)))
  let baselineByKey ← runsByKey outcome.runs experiment.baselineVersionId
  let candidateByKey ← runsByKey outcome.runs experiment.candidateVersionId
  let common := Sorting.sorted (baselineByKey.keys.filter candidateByKey.contains)
  let matched := common.length
  let unmatched := (baselineByKey.size - matched) + (candidateByKey.size - matched)
  let caseResults := Dict.ofList (outcome.caseResults.map fun cr => (cr.runId, cr))
  let pairs ← common.mapM fun key => do
    pure ((← runAt baselineByKey key), (← runAt candidateByKey key))
  let series ← allSeries pairs caseResults matched unmatched evaluatorNames
  pure (Dict.ofList (series.map fun s => (s.metric, s)))

/-! ### The paired bootstrap -/

/-- `_percentile` of an ordered sequence. -/
def percentile (ordered : List ℚ) (q : ℚ) : Py ℚ :=
  if ordered.length = 1 then pyIndex ordered 0
  else
    let pos := q * ((ordered.length : ℚ) - 1)
    let lo := ⌊pos⌋
    let hi := ⌈pos⌉
    if lo = hi then pyIndex ordered lo
    else do
      let low ← pyIndex ordered lo
      let high ← pyIndex ordered hi
      pure (low + (high - low) * (pos - lo))

/-- `[cv - bv for bv, cv in zip(baseline, candidate)]`. -/
def differences (baseline candidate : List ℚ) : List ℚ :=
  (baseline.zip candidate).map fun p => p.2 - p.1

/-- One resample: the mean of `n` differences at random positions. The generator has made
`r * n` draws before the `r`-th resample. -/
def resample (rt : Runtime) (seed : ℤ) (diffs : List ℚ) (r : ℕ) : Py ℚ := do
  let n := diffs.length
  let total ← (List.range n).foldlM (fun (total : ℚ) j => do
    let d ← pyIndex diffs (rt.randrange seed n (r * n + j))
    pure (total + d)) 0
  pure (total / n)

/-- The bootstrap interval of the differences: the part of `paired_bootstrap_ci` after the
checks on the arguments. -/
def bootstrapInterval (rt : Runtime) (options : BootstrapOptions) (diffs : List ℚ) :
    Py (Option ℚ × Option ℚ) := do
  let estimates ← (List.range options.resamples.toNat).mapM
    (resample rt options.seed diffs)
  let ordered := Sorting.sorted estimates
  let tail := (1 - options.confidenceLevel) / 2
  let low ← percentile ordered tail
  let high ← percentile ordered (1 - tail)
  pure (some low, some high)

/-- `paired_bootstrap_ci`. -/
def pairedBootstrapCi (rt : Runtime) (options : BootstrapOptions) (baseline candidate : List ℚ) :
    Py (Option ℚ × Option ℚ) := do
  if ¬(0 < options.confidenceLevel ∧ options.confidenceLevel < 1) then
    throw (.config "confidence_level must be in (0, 1)")
  if candidate.length ≠ baseline.length then
    throw (.config "baseline and candidate must have the same length")
  if baseline.length < minPairsForCi then pure (none, none)
  else
    match differences baseline candidate with
    | [] => throw ⟨.indexError, "list index out of range"⟩
    | first :: rest =>
        if (first :: rest).all fun d => decide (d = first) then pure (some first, some first)
        else bootstrapInterval rt options (first :: rest)

/-! ### Evidence -/

/-- The interval lies on one side of zero. -/
def excludesZero : Option ℚ × Option ℚ → Bool
  | (some low, some high) => decide (0 < low ∨ high < 0)
  | _ => false

/-- `metric_evidence`. -/
def metricEvidence (rt : Runtime) (options : BootstrapOptions) (metric : String)
    (kind : MetricKind) (baseline candidate : List ℚ) (droppedProviderFailures : ℕ) :
    Py MetricEvidence := do
  if baseline.length ≠ candidate.length then
    throw (.config "baseline and candidate must have the same length")
  let bSummary := summarize rt baseline
  let cSummary := summarize rt candidate
  let diffs := differences baseline candidate
  let n := diffs.length
  let delta := cSummary.mean - bSummary.mean
  let ci ← pairedBootstrapCi rt options baseline candidate
  let insufficient := decide (n < minPairsForCi)
  MetricEvidence.make
    { metric, kind
      nPairs := n
      baseline := bSummary
      candidate := cSummary
      pairedDelta := summarize rt diffs
      delta
      relativeChange := if bSummary.mean = 0 then none else some (delta / bSummary.mean)
      confidenceLevel := options.confidenceLevel
      ciLow := ci.1
      ciHigh := ci.2
      ciExcludesZero := !insufficient && excludesZero ci
      insufficientEvidence := insufficient
      method := bootstrapMethod
      resamples := options.resamples
      seed := options.seed
      droppedProviderFailures }

/-- `build_statistical_evidence`: the `i`-th metric draws from the generator of `seed + i`. -/
def buildStatisticalEvidence (rt : Runtime) (options : BootstrapOptions)
    (experiment : Experiment) (outcome : RunOutcome) (evaluatorNames : List String) :
    Py (List MetricEvidence) := do
  let series ← pairedObservations experiment outcome evaluatorNames
  series.values.zipIdx.mapM fun (s, i) =>
    metricEvidence rt { options with seed := options.seed + i } s.metric s.kind s.baseline
      s.candidate s.droppedProviderFailures

end EvalOps
