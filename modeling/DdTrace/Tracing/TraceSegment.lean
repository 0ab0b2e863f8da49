import DdTrace.Tracing.Span

/-! A trace segment and the span handles that share it, as one state machine. A step is one
segment call, atomic under the segment's mutex: `Span::create_child` on a live handle,
moving a handle, `Span::~Span`, or a user call on a live handle. The segment counts the
finished spans and, when all have finished, finalizes them (the sampling decision and the
samplers' numeric tags) and hands them to the collector. -/

namespace DdTrace.Tracing

/-- Modelled from the spec: how a sampling decision was made. -/
inductive SamplingMechanism
  | agentRate
  | rule
  | manual
  deriving DecidableEq, Repr

/-- Modelled from the spec: a sampling decision (sampling_decision.h is not in the sources).
A priority of at most 0 rejects the trace; `rate` is the rate the agent or the rule chose, and
`limiterRate` the effective rate of the rule's limiter, when one applied. -/
structure SamplingDecision where
  priority : Int
  mechanism : SamplingMechanism
  rate : Option Float
  limiterRate : Option Float

/-- Modelled from the spec: what the trace sampler records on the local root when it makes
the decision, the rate chosen as `_dd.agent_psr` or `_dd.rule_psr` and the limiter's as
`_dd.limit_psr`. -/
def SamplingDecision.metrics (decision : SamplingDecision) : NumericTags :=
  let metrics : NumericTags := match decision.mechanism, decision.rate with
    | .agentRate, some rate => (∅ : NumericTags).insert "_dd.agent_psr".toList rate
    | .rule, some rate => (∅ : NumericTags).insert "_dd.rule_psr".toList rate
    | _, _ => ∅
  match decision.limiterRate with
  | some rate => metrics.insert "_dd.limit_psr".toList rate
  | none => metrics

/-- Modelled from the spec: the span-sampling rule that keeps a span. -/
structure SpanSamplingRule where
  sampleRate : Float
  maxPerSecond : Option Float

/-- Modelled from the spec: the tags a span-sampling rule records on a span it keeps. -/
def SpanSamplingRule.metrics (rule : SpanSamplingRule) : NumericTags :=
  let metrics : NumericTags := ((∅ : NumericTags).insert "_dd.span_sampling.mechanism".toList 8)
    |>.insert "_dd.span_sampling.rule_rate".toList rule.sampleRate
  match rule.maxPerSecond with
  | some limit => metrics.insert "_dd.span_sampling.max_per_second".toList limit
  | none => metrics

/-- Modelled from the spec: the segment's `trace_sampler_` and `span_sampler_`, as what they
decide (trace_sampler.cpp and span_sampler.cpp are not in the sources, so their rules, hashing
and limiters stay inside these functions). The trace sampler decides from the local root; the
span sampler gives the rule that keeps a span, if one does. -/
structure Samplers where
  trace : SpanData → SamplingDecision
  span : SpanData → Option SpanSamplingRule

/-- The samplers of a tracer with no trace or span rules, at the agent's default rate 1: every
trace is kept, and its rate recorded as `_dd.agent_psr`. -/
def Samplers.noRules : Samplers := ⟨fun _ => ⟨1, .agentRate, some 1, none⟩, fun _ => none⟩

/-- Modelled from the spec: the part of `TraceSegment` that span creation and finishing
read and write (trace_segment.cpp is not in the sources). -/
structure TraceSegment where
  samplers : Samplers
  defaults : SpanDefaults
  samplingDecision : Option SamplingDecision
  spans : List SpanData
  numFinishedSpans : Nat

/-- A span with its numeric tags dropped: the part of it that sampling leaves alone. -/
def SpanData.withoutNumericTags (data : SpanData) : SpanData := { data with numericTags := ∅ }

namespace TraceSegment

/-- Modelled from the spec: `register_span` appends the span. -/
def registerSpan (segment : TraceSegment) (span : SpanData) : TraceSegment :=
  { segment with spans := segment.spans ++ [span] }

/-- Modelled from the spec: a segment without a decision asks the trace sampler, which
decides from the local root and records its rates there. -/
def makeSamplingDecisionIfNull (segment : TraceSegment) : TraceSegment :=
  match segment.samplingDecision with
  | some _ => segment
  | none =>
    let decision := segment.samplers.trace (segment.spans.headD {})
    { segment with
      samplingDecision := some decision
      spans := segment.spans.modifyHead fun root =>
        { root with numericTags := decision.metrics ∪ root.numericTags } }

/-- Modelled from the spec: a span that a span-sampling rule keeps gets the rule's tags. -/
def sampleSpan (samplers : Samplers) (span : SpanData) : SpanData :=
  match samplers.span span with
  | some rule => { span with numericTags := rule.metrics ∪ span.numericTags }
  | none => span

/-- Modelled from the spec: what `span_finished` does once every span has finished, before the
spans go to the collector. The decision is made if there is none; if it rejects the trace,
every span goes through the span sampler. -/
def finalize (segment : TraceSegment) : TraceSegment :=
  let segment := segment.makeSamplingDecisionIfNull
  if segment.samplingDecision.any (·.priority ≤ 0) then
    { segment with spans := segment.spans.map (sampleSpan segment.samplers) }
  else segment

/-- Modelled from the spec: `span_finished` counts one more finished span, and the call that
brings the count to `spans_.size()` finalizes the segment and hands its spans to the
collector. -/
def spanFinished (segment : TraceSegment) : TraceSegment × Option (List SpanData) :=
  let segment := { segment with numFinishedSpans := segment.numFinishedSpans + 1 }
  if segment.numFinishedSpans < segment.spans.length then (segment, none)
  else (segment.finalize, some segment.finalize.spans)

def Complete (segment : TraceSegment) : Prop := segment.numFinishedSpans = segment.spans.length

instance : DecidablePred Complete := fun _ => inferInstanceAs (Decidable (_ = _))

variable {segment : TraceSegment}

theorem makeSamplingDecisionIfNull_spec (segment : TraceSegment) :
    ∃ decision spans, segment.makeSamplingDecisionIfNull =
        { segment with samplingDecision := some decision, spans } ∧
      spans.map SpanData.withoutNumericTags = segment.spans.map SpanData.withoutNumericTags := by
  unfold makeSamplingDecisionIfNull
  split
  · rename_i decision hdecision
    exact ⟨decision, segment.spans, by rw [← hdecision], rfl⟩
  · exact ⟨_, _, rfl, by cases segment.spans <;> rfl⟩

theorem withoutNumericTags_sampleSpan (samplers : Samplers) (span : SpanData) :
    (sampleSpan samplers span).withoutNumericTags = span.withoutNumericTags := by
  unfold sampleSpan
  split <;> rfl

theorem finalize_spec (segment : TraceSegment) :
    ∃ decision spans, segment.finalize = { segment with samplingDecision := some decision, spans } ∧
      spans.map SpanData.withoutNumericTags = segment.spans.map SpanData.withoutNumericTags := by
  obtain ⟨decision, spans, hmake, hspans⟩ := segment.makeSamplingDecisionIfNull_spec
  unfold finalize
  rw [hmake]
  dsimp only
  split
  · refine ⟨decision, _, rfl, ?_⟩
    simp only [List.map_map, Function.comp_def, withoutNumericTags_sampleSpan]
    exact hspans
  · exact ⟨decision, spans, rfl, hspans⟩

/- With no rules, the default agent rate is recorded on the local root only; when a rule
rejects the trace, a span that a span rule keeps gets that rule's tags. -/
example :
    (TraceSegment.mk .noRules {} none [{}, {}] 2).finalize.spans.map (·.numericTags.keys) =
      [["_dd.agent_psr".toList], []] := by decide

example :
    (TraceSegment.mk ⟨fun _ => ⟨0, .rule, some 0, none⟩,
        fun span => if span.name = "db.query".toList then some ⟨1, none⟩ else none⟩ {} none
      [{ name := "http.request".toList }, { name := "db.query".toList }] 2).finalize.spans.map
        (·.numericTags.keys) =
      [["_dd.rule_psr".toList],
        ["_dd.span_sampling.rule_rate".toList, "_dd.span_sampling.mechanism".toList]] := by decide

@[simp] theorem finalize_defaults : segment.finalize.defaults = segment.defaults := by
  obtain ⟨_, _, h, -⟩ := segment.finalize_spec
  rw [h]

@[simp] theorem finalize_numFinishedSpans :
    segment.finalize.numFinishedSpans = segment.numFinishedSpans := by
  obtain ⟨_, _, h, -⟩ := segment.finalize_spec
  rw [h]

theorem map_withoutNumericTags_finalize (segment : TraceSegment) :
    segment.finalize.spans.map SpanData.withoutNumericTags =
      segment.spans.map SpanData.withoutNumericTags := by
  obtain ⟨_, _, h, hspans⟩ := segment.finalize_spec
  rw [h]
  exact hspans

@[simp] theorem spanFinished_numFinishedSpans :
    segment.spanFinished.1.numFinishedSpans = segment.numFinishedSpans + 1 := by
  unfold spanFinished
  dsimp only
  split <;> simp

@[simp] theorem spanFinished_defaults : segment.spanFinished.1.defaults = segment.defaults := by
  unfold spanFinished
  dsimp only
  split <;> simp

theorem map_withoutNumericTags_spanFinished (segment : TraceSegment) :
    segment.spanFinished.1.spans.map SpanData.withoutNumericTags =
      segment.spans.map SpanData.withoutNumericTags := by
  unfold spanFinished
  dsimp only
  split
  · rfl
  · exact map_withoutNumericTags_finalize _

@[simp] theorem length_spanFinished_spans :
    segment.spanFinished.1.spans.length = segment.spans.length := by
  simpa using congrArg List.length segment.map_withoutNumericTags_spanFinished

theorem spanFinished_of_lt (h : segment.numFinishedSpans + 1 < segment.spans.length) :
    segment.spanFinished.1 = { segment with numFinishedSpans := segment.numFinishedSpans + 1 } := by
  unfold spanFinished
  dsimp only
  rw [if_pos h]

theorem spanFinished_of_not_lt (h : ¬ segment.numFinishedSpans + 1 < segment.spans.length) :
    segment.spanFinished.1 =
      { segment with numFinishedSpans := segment.numFinishedSpans + 1 }.finalize := by
  unfold spanFinished
  dsimp only
  rw [if_neg h]

theorem spanFinished_snd : segment.spanFinished.2 =
    if segment.numFinishedSpans + 1 < segment.spans.length then none
    else some segment.spanFinished.1.spans := by
  unfold spanFinished
  dsimp only
  split_ifs <;> rfl

end TraceSegment

namespace Span

/-- `Span::create_child`: the config is applied first; then the child takes the parent's
trace id, the parent's span id as its parent id, and a fresh span id, is registered, and
gets a handle. -/
def createChild (span : Span) (segment : TraceSegment) (config : SpanConfig)
    (spanId : UInt64) (now : TimePoint) : Option (TraceSegment × Span) :=
  segment.spans[span.data]?.map fun data =>
    let spanData := ({} : SpanData).applyConfig segment.defaults config now
    let spanData := { spanData with traceId := data.traceId, parentId := data.spanId, spanId }
    (segment.registerSpan spanData, ⟨true, segment.spans.length, none⟩)

/-- The duration `Span::~Span` records. -/
def finish (span : Span) (now : TimePoint) (data : SpanData) : SpanData :=
  match span.endTime with
  | some endTime => { data with duration := endTime - data.start.tick }
  | none => { data with duration := now.sub data.start }

theorem finish_ids (span : Span) (now : TimePoint) (data : SpanData) :
    (span.finish now data).ids = data.ids := by
  unfold finish
  split <;> rfl

/-- `Span::~Span`: a moved-from handle does nothing; otherwise the span's duration is
recorded and the segment told, which may give back the finished spans. -/
def destroy (span : Span) (segment : TraceSegment) (now : TimePoint) :
    TraceSegment × Option (List SpanData) :=
  if !span.traceSegment then (segment, none)
  else { segment with spans := segment.spans.modify (span.finish now) span.data }.spanFinished

end Span

/-- A segment, the handles made for it (`none` once destroyed), and the batches its
collector received. -/
structure World where
  segment : TraceSegment
  handles : List (Option Span)
  collected : List (List SpanData)

/-- A segment call on the handle at the given index: `now` is what the clock reads and
`spanId` what `generate_span_id` returns. -/
inductive Action
  | createChild (handle : Nat) (config : SpanConfig) (spanId : UInt64) (now : TimePoint)
  | move (handle : Nat)
  | destroy (handle : Nat) (now : TimePoint)
  | call (handle : Nat) (op : SpanOp)

def Action.isCreateChild : Action → Bool
  | .createChild .. => true
  | _ => false

namespace World

/-- A segment holding only its local root, with one handle to it: `decision` is the sampling
decision the segment was created with, if any (one extracted from the caller). -/
def init (samplers : Samplers) (defaults : SpanDefaults) (decision : Option SamplingDecision)
    (root : SpanData) : World :=
  ⟨⟨samplers, defaults, decision, [root], 0⟩, [some ⟨true, 0, none⟩], []⟩

def handle (w : World) (i : Nat) : Option Span := w.handles[i]?.join

/-- The handles neither moved from nor destroyed. -/
def liveHandles (w : World) : Nat := w.handles.countP fun handle => handle.any Span.traceSegment

/-- One segment call. A call on a destroyed handle is not made. On a moved-from handle, whose
segment pointer is null, only moving and destruction are: the program must not use a handle
after moving it, since `create_child` would dereference the null segment pointer and the
user calls would still write, through the `data_` pointer a move keeps, into a span the
handle no longer owns. -/
def step (w : World) : Action → Option World
  | .createChild i config spanId now =>
    (w.handle i).bind fun span =>
      if span.traceSegment then
        (span.createChild w.segment config spanId now).map fun (segment, child) =>
          { w with segment, handles := w.handles ++ [some child] }
      else none
  | .move i =>
    (w.handle i).map fun span =>
      { w with handles := w.handles.set i (some { span with traceSegment := false }) ++ [some span] }
  | .destroy i now =>
    (w.handle i).map fun span =>
      let (segment, batch) := span.destroy w.segment now
      { w with segment, handles := w.handles.set i none, collected := w.collected ++ batch.toList }
  | .call i op =>
    (w.handle i).bind fun span =>
      if span.traceSegment then
        some { w with
          segment := { w.segment with spans := w.segment.spans.modify op.apply span.data }
          handles := w.handles.set i (some { span with endTime := op.endTime span.endTime }) }
      else none

/-- The calls in order; `none` if one of them is not made. -/
def run (w : World) : List Action → Option World
  | [] => some w
  | a :: actions => (w.step a).bind fun w => w.run actions

theorem run_induction (P : World → Prop) (hstep : ∀ w a w', P w → w.step a = some w' → P w')
    {w w' : World} {actions : List Action} (hw : P w) (hrun : w.run actions = some w') : P w' := by
  induction actions generalizing w with
  | nil => cases hrun; exact hw
  | cons a actions ih =>
    obtain ⟨w₁, h₁, hrun⟩ := Option.bind_eq_some.mp hrun
    exact ih (hstep w a w₁ hw h₁) hrun

section Counting

variable {w : World} {i : Nat} {span : Span}

theorem handle_eq_some : w.handle i = some span ↔ w.handles[i]? = some (some span) :=
  Option.join_eq_some

theorem liveHandles_set (h : w.handle i = some span) (b : Option Span) :
    (w.handles.set i b).countP (fun handle => handle.any Span.traceSegment) +
        (if span.traceSegment then 1 else 0) =
      w.liveHandles + if b.any Span.traceSegment then 1 else 0 := by
  obtain ⟨hi, hget⟩ := List.getElem?_eq_some_iff.mp (handle_eq_some.mp h)
  rw [liveHandles, List.countP_set _ _ _ _ hi, hget]
  have hpos : span.traceSegment = true → 0 < w.handles.countP (·.any Span.traceSegment) :=
    fun hl => List.countP_pos_iff.mpr ⟨_, hget ▸ List.getElem_mem hi, by simpa using hl⟩
  simp only [Option.any_some]
  split_ifs <;> simp_all

theorem liveHandles_pos (h : w.handle i = some span) (hlive : span.traceSegment = true) :
    0 < w.liveHandles := by
  have := liveHandles_set h none
  simp only [hlive, Option.any_none, ↓reduceIte, Bool.false_eq_true] at this
  omega

end Counting

theorem map_modify_of_ids {f : SpanData → SpanData} (hf : ∀ data, (f data).ids = data.ids)
    (spans : List SpanData) (k : Nat) :
    (spans.modify f k).map SpanData.ids = spans.map SpanData.ids := by
  refine List.ext_getElem? fun n => ?_
  rw [List.getElem?_map, List.getElem?_map, List.getElem?_modify]
  split <;> cases spans[n]? <;> simp [hf]

section Step

variable {w w' : World}

/-- What a step does to the counters: a child adds a span and a live handle; destroying a
live handle counts one more finished span and may send the batch; every other step keeps
the counters, and keeps the spans when no handle is live. -/
theorem step_counts {a : Action} (h : w.step a = some w') :
    (0 < w.liveHandles ∧ a.isCreateChild ∧ w'.liveHandles = w.liveHandles + 1 ∧
      w'.segment.spans.length = w.segment.spans.length + 1 ∧
      w'.segment.numFinishedSpans = w.segment.numFinishedSpans ∧ w'.collected = w.collected) ∨
    ((∃ i now span, a = .destroy i now ∧ w.handle i = some span ∧ span.traceSegment = true) ∧
      w'.liveHandles + 1 = w.liveHandles ∧ w'.segment.spans.length = w.segment.spans.length ∧
      w'.segment.numFinishedSpans = w.segment.numFinishedSpans + 1 ∧
      w'.collected = w.collected ++
        if w'.segment.numFinishedSpans < w'.segment.spans.length then [] else [w'.segment.spans]) ∨
    (¬ (∃ i now span, a = .destroy i now ∧ w.handle i = some span ∧ span.traceSegment = true) ∧
      !a.isCreateChild ∧
      w'.liveHandles = w.liveHandles ∧ w'.segment.spans.length = w.segment.spans.length ∧
      w'.segment.numFinishedSpans = w.segment.numFinishedSpans ∧ w'.collected = w.collected ∧
      (w.liveHandles = 0 → w'.segment.spans = w.segment.spans)) := by
  cases a with
  | createChild i config spanId now =>
    obtain ⟨span, hspan, h⟩ := Option.bind_eq_some.mp h
    split at h
    · rename_i hlive
      obtain ⟨⟨segment, child⟩, hchild, rfl⟩ := Option.map_eq_some'.mp h
      obtain ⟨data, -, hchild⟩ := Option.map_eq_some'.mp hchild
      cases hchild
      left
      refine ⟨liveHandles_pos hspan hlive, rfl, ?_, ?_, rfl, rfl⟩
      · simp [liveHandles, List.countP_append]
      · simp [TraceSegment.registerSpan]
    · cases h
  | move i =>
    obtain ⟨span, hspan, rfl⟩ := Option.map_eq_some'.mp h
    right; right
    refine ⟨by simp, rfl, ?_, rfl, rfl, rfl, fun _ => rfl⟩
    have := liveHandles_set hspan (some { span with traceSegment := false })
    simp only [liveHandles, List.countP_append] at this ⊢
    split_ifs at this <;> simp_all
  | destroy i now =>
    obtain ⟨span, hspan, rfl⟩ := Option.map_eq_some'.mp h
    have hset := liveHandles_set hspan none
    simp only [Option.any_none] at hset
    cases hlive : span.traceSegment
    · right; right
      refine ⟨?_, rfl, ?_, ?_⟩
      · rintro ⟨i', now', span', ha, hspan', hlive'⟩
        cases ha
        simp_all
      · simp_all [liveHandles, Span.destroy]
      · simp [Span.destroy, hlive]
    · right; left
      refine ⟨⟨i, now, span, rfl, hspan, hlive⟩, ?_⟩
      simp only [hlive, ↓reduceIte] at hset
      simp [liveHandles, Span.destroy, hlive, hset, TraceSegment.spanFinished_snd]
      split_ifs <;> simp
  | call i op =>
    obtain ⟨span, hspan, h⟩ := Option.bind_eq_some.mp h
    split at h
    · rename_i hlive
      cases h
      right; right
      have hset := liveHandles_set hspan (some { span with endTime := op.endTime span.endTime })
      have hpos := liveHandles_pos hspan hlive
      simp only [Option.any_some, hlive, ↓reduceIte] at hset
      refine ⟨by simp, rfl, by simpa [liveHandles, hlive] using hset, by simp,
        rfl, rfl, fun h0 => absurd h0 (by omega)⟩
    · cases h

/-- Spans grow only by a child of an existing span; otherwise they keep their ids. -/
theorem step_spans {a : Action} (h : w.step a = some w') :
    (∃ k, ∃ hk : k < w.segment.spans.length, ∃ child : SpanData,
      child.traceId = w.segment.spans[k].traceId ∧ child.parentId = w.segment.spans[k].spanId ∧
      w'.segment.spans = w.segment.spans ++ [child]) ∨
    w'.segment.spans.map SpanData.ids = w.segment.spans.map SpanData.ids := by
  cases a with
  | createChild i config spanId now =>
    obtain ⟨span, -, h⟩ := Option.bind_eq_some.mp h
    split at h
    · obtain ⟨⟨segment, child⟩, hchild, rfl⟩ := Option.map_eq_some'.mp h
      obtain ⟨data, hdata, hchild⟩ := Option.map_eq_some'.mp hchild
      cases hchild
      obtain ⟨hk, rfl⟩ := List.getElem?_eq_some_iff.mp hdata
      refine .inl ⟨span.data, hk, _, ?_, ?_, rfl⟩ <;> rfl
    · cases h
  | move i =>
    obtain ⟨span, -, rfl⟩ := Option.map_eq_some'.mp h
    exact .inr rfl
  | destroy i now =>
    obtain ⟨span, -, rfl⟩ := Option.map_eq_some'.mp h
    cases hlive : span.traceSegment
    · exact .inr (by simp [Span.destroy, hlive])
    · refine .inr ?_
      have hspans := congrArg (List.map SpanData.ids)
        (TraceSegment.map_withoutNumericTags_spanFinished
          { w.segment with spans := w.segment.spans.modify (span.finish now) span.data })
      simp only [List.map_map] at hspans
      simp only [Span.destroy, hlive, Bool.not_true, Bool.false_eq_true, ↓reduceIte]
      exact hspans.trans (map_modify_of_ids (span.finish_ids now) _ _)
  | call i op =>
    obtain ⟨span, -, h⟩ := Option.bind_eq_some.mp h
    split at h
    · cases h
      exact .inr (map_modify_of_ids (SpanOp.apply_ids op) _ _)
    · cases h

/-- What every reachable world satisfies: each span has finished or still has its live
handle, and the collector holds the spans, once, from the moment all have finished. -/
structure Invariant (w : World) : Prop where
  count : w.segment.numFinishedSpans + w.liveHandles = w.segment.spans.length
  collected : w.collected = if w.segment.Complete then [w.segment.spans] else []

theorem Invariant.init (samplers : Samplers) (defaults : SpanDefaults)
    (decision : Option SamplingDecision) (root : SpanData) :
    (World.init samplers defaults decision root).Invariant :=
  ⟨rfl, by simp [World.init, TraceSegment.Complete]⟩

theorem Invariant.step (hw : w.Invariant) {a : Action} (h : w.step a = some w') :
    w'.Invariant := by
  obtain ⟨hcount, hcollected⟩ := hw
  rcases step_counts h with ⟨hpos, -, hlive, hlen, hnf, hcol⟩ | ⟨-, hlive, hlen, hnf, hcol⟩ |
    ⟨-, -, hlive, hlen, hnf, hcol, hspans⟩
  all_goals
    refine ⟨by omega, ?_⟩
    rw [hcol, hcollected]
    unfold TraceSegment.Complete
    split_ifs <;> first | omega | rfl | rw [hspans (by omega)]

theorem Invariant.run (samplers : Samplers) (defaults : SpanDefaults)
    (decision : Option SamplingDecision) (root : SpanData) {actions : List Action} {w : World}
    (hw : (World.init samplers defaults decision root).run actions = some w) : w.Invariant :=
  run_induction Invariant (fun _ _ _ hw h => hw.step h) (Invariant.init ..) hw

theorem numFinishedSpans_add_liveHandles (samplers : Samplers) (defaults : SpanDefaults)
    (decision : Option SamplingDecision) (root : SpanData) (actions : List Action) (w : World)
    (hw : (World.init samplers defaults decision root).run actions = some w) :
    w.segment.numFinishedSpans + w.liveHandles = w.segment.spans.length ∧
    w.segment.numFinishedSpans ≤ w.segment.spans.length ∧
    (∀ a w', w.step a = some w' →
      ((¬ w.segment.Complete ∧ w'.segment.Complete) ↔
        (∃ i now span, a = .destroy i now ∧ w.handle i = some span ∧ span.traceSegment = true) ∧
          w.liveHandles = 1) ∧
      (w.segment.Complete → w'.segment.Complete ∧ w'.segment.spans = w.segment.spans)) ∧
    w.collected = if w.segment.Complete then [w.segment.spans] else [] := by
  have hinv := Invariant.run samplers defaults decision root hw
  refine ⟨hinv.count, by have := hinv.count; omega, fun a w' h => ?_, hinv.collected⟩
  have hcount := hinv.count
  have hcount' := (hinv.step h).count
  unfold TraceSegment.Complete
  rcases step_counts h with ⟨hpos, hchild, hlive, hlen, hnf, -⟩ | ⟨hfin, hlive, hlen, hnf, -⟩ |
    ⟨hnfin, -, hlive, hlen, hnf, -, hspans⟩
  · refine ⟨⟨fun ⟨_, hc⟩ => absurd hc (by omega), fun ⟨⟨i, now, _, ha, _⟩, _⟩ => by
    simp [ha, Action.isCreateChild] at hchild⟩,
      fun hc => absurd hc (by omega)⟩
  · exact ⟨⟨fun _ => ⟨hfin, by omega⟩, fun _ => ⟨by omega, by omega⟩⟩, fun hc => absurd hc (by omega)⟩
  · exact ⟨⟨fun ⟨hc, hc'⟩ => absurd hc' (by omega), fun ⟨hf, _⟩ => absurd hf hnfin⟩,
      fun hc => ⟨by omega, hspans (by omega)⟩⟩

/-- A root, a child and a grandchild, a tag call, a moved root handle, and every handle
destroyed, the root's last. -/
def nestedCalls : List Action :=
  [.createChild 0 {} 8 ⟨0, 0⟩, .createChild 1 {} 9 ⟨0, 1⟩, .call 2 (.setTag "k".toList "v".toList),
    .move 0, .destroy 0 ⟨0, 2⟩, .destroy 2 ⟨0, 3⟩, .destroy 1 ⟨0, 4⟩, .destroy 3 ⟨0, 5⟩]

theorem numFinishedSpans_add_liveHandles_nested :
    ∃ w, (World.init .noRules {} none { traceId := 7, spanId := 7 }).run nestedCalls = some w ∧
      w.segment.numFinishedSpans + w.liveHandles = w.segment.spans.length ∧
      w.segment.numFinishedSpans ≤ w.segment.spans.length ∧
      (∀ a w', w.step a = some w' →
        ((¬ w.segment.Complete ∧ w'.segment.Complete) ↔
          (∃ i now span, a = .destroy i now ∧ w.handle i = some span ∧
            span.traceSegment = true) ∧ w.liveHandles = 1) ∧
        (w.segment.Complete → w'.segment.Complete ∧ w'.segment.spans = w.segment.spans)) ∧
      w.collected = if w.segment.Complete then [w.segment.spans] else [] :=
  ⟨_, rfl, numFinishedSpans_add_liveHandles .noRules {} none { traceId := 7, spanId := 7 }
    nestedCalls _ rfl⟩

theorem length_run {w w' : World} {actions : List Action} (h : w.run actions = some w') :
    w'.segment.spans.length = w.segment.spans.length + actions.countP Action.isCreateChild := by
  induction actions generalizing w with
  | nil => cases h; rfl
  | cons a actions ih =>
    obtain ⟨w₁, h₁, hrun⟩ := Option.bind_eq_some.mp h
    rw [ih hrun, List.countP_cons]
    rcases step_counts h₁ with ⟨-, hchild, -, hlen, -⟩ | ⟨⟨i, now, -, rfl, -⟩, -, hlen, -⟩ |
      ⟨-, hchild, -, hlen, -⟩
    · simp only [hchild, hlen, ↓reduceIte]; omega
    · simp only [hlen, Action.isCreateChild, Bool.false_eq_true, ↓reduceIte]; omega
    · simp only [Bool.not_eq_true'] at hchild
      simp only [hchild, hlen, Bool.false_eq_true, ↓reduceIte]; omega

theorem spans_length_run (samplers : Samplers) (defaults : SpanDefaults)
    (decision : Option SamplingDecision) (root : SpanData) (actions : List Action) (w : World)
    (hw : (World.init samplers defaults decision root).run actions = some w) :
    w.segment.spans.length = 1 + actions.countP Action.isCreateChild :=
  length_run hw

theorem spans_length_run_nested :
    ∃ w, (World.init .noRules {} none { traceId := 7, spanId := 7 }).run nestedCalls = some w ∧
      w.segment.spans.length = 1 + nestedCalls.countP Action.isCreateChild :=
  ⟨_, rfl, spans_length_run .noRules {} none { traceId := 7, spanId := 7 } nestedCalls _ rfl⟩

/-- The spans' ids hang from the root: every span carries the root's trace id, and every
later span's parent id is the span id of an earlier one. -/
structure IdTree (traceId : UInt64) (spans : List SpanData) : Prop where
  traceId_eq : ∀ i (hi : i < spans.length), spans[i].traceId = traceId
  parent : ∀ i (hi : i < spans.length), 0 < i →
    ∃ j, ∃ _ : j < i, spans[i].parentId = spans[j].spanId

namespace IdTree

variable {traceId : UInt64} {spans : List SpanData}

theorem init (root : SpanData) : IdTree root.traceId [root] where
  traceId_eq i hi := by
    obtain rfl : i = 0 := by simpa using hi
    rfl
  parent i hi hpos := absurd hi (by simp; omega)

theorem append (h : IdTree traceId spans) {k : Nat} (hk : k < spans.length) {child : SpanData}
    (htrace : child.traceId = spans[k].traceId) (hparent : child.parentId = spans[k].spanId) :
    IdTree traceId (spans ++ [child]) := by
  constructor
  · intro i hi
    rw [List.length_append, List.length_singleton] at hi
    by_cases hlt : i < spans.length
    · rw [List.getElem_append_left hlt]; exact h.traceId_eq i hlt
    · rw [List.getElem_append_right (by omega)]
      simp only [List.getElem_singleton]
      rw [htrace]; exact h.traceId_eq k hk
  · intro i hi hpos
    rw [List.length_append, List.length_singleton] at hi
    by_cases hlt : i < spans.length
    · obtain ⟨j, hj, heq⟩ := h.parent i hlt hpos
      refine ⟨j, hj, ?_⟩
      rw [List.getElem_append_left hlt, List.getElem_append_left (by omega), heq]
    · obtain rfl : i = spans.length := by omega
      refine ⟨k, hk, ?_⟩
      rw [List.getElem_append_right (by omega), List.getElem_append_left hk]
      simpa using hparent

theorem of_map_ids (h : IdTree traceId spans) {spans' : List SpanData}
    (hids : spans'.map SpanData.ids = spans.map SpanData.ids) : IdTree traceId spans' := by
  have hlen : spans'.length = spans.length := by simpa using congrArg List.length hids
  have hget : ∀ i (hi : i < spans'.length) (hi' : i < spans.length),
      spans'[i].ids = spans[i].ids := fun i hi hi' => by
    simpa [List.getElem?_eq_getElem hi, List.getElem?_eq_getElem hi'] using congrArg (·[i]?) hids
  constructor
  · intro i hi
    rw [show spans'[i].traceId = spans[i].traceId from congrArg (·.1) (hget i hi (by omega))]
    exact h.traceId_eq i (by omega)
  · intro i hi hpos
    obtain ⟨j, hj, heq⟩ := h.parent i (by omega) hpos
    have hi' := congrArg (·.2.2) (hget i hi (by omega))
    have hj' := congrArg (·.2.1) (hget j (by omega) (by omega))
    exact ⟨j, hj, by simp only [SpanData.ids] at hi' hj'; rw [hi', hj', heq]⟩

theorem step (h : IdTree traceId w.segment.spans) {a : Action} (hstep : w.step a = some w') :
    IdTree traceId w'.segment.spans := by
  rcases step_spans hstep with ⟨k, hk, child, htrace, hparent, hspans⟩ | hids
  · exact hspans ▸ h.append hk htrace hparent
  · exact h.of_map_ids hids

end IdTree

theorem spans_share_trace_id (samplers : Samplers) (defaults : SpanDefaults)
    (decision : Option SamplingDecision) (root : SpanData) (actions : List Action) (w : World)
    (hw : (World.init samplers defaults decision root).run actions = some w) :
    (∀ d ∈ w.segment.spans, d.traceId = root.traceId) ∧
    ∀ i (hi : i < w.segment.spans.length), 0 < i →
      ∃ j, ∃ _ : j < i, w.segment.spans[i].parentId = w.segment.spans[j].spanId := by
  have htree := run_induction (fun w => IdTree root.traceId w.segment.spans)
    (fun _ _ _ ht h => ht.step h) (IdTree.init root) hw
  refine ⟨fun d hd => ?_, htree.parent⟩
  obtain ⟨i, hi, rfl⟩ := List.getElem_of_mem hd
  exact htree.traceId_eq i hi

theorem spans_share_trace_id_nested :
    ∃ w, (World.init .noRules {} none { traceId := 7, spanId := 7 }).run nestedCalls = some w ∧
      (∀ d ∈ w.segment.spans, d.traceId = 7) ∧
      ∀ i (hi : i < w.segment.spans.length), 0 < i →
        ∃ j, ∃ _ : j < i, w.segment.spans[i].parentId = w.segment.spans[j].spanId :=
  ⟨_, rfl, spans_share_trace_id .noRules {} none { traceId := 7, spanId := 7 } nestedCalls _ rfl⟩

end Step

section Finishing

variable {w : World}

theorem handle_destroy {i : Nat} {span : Span} (h : w.handle i = some span) (now : TimePoint) :
    ∃ w', w.step (.destroy i now) = some w' ∧ w'.handles = w.handles.set i none := by
  simp only [step, h, Option.map_some']
  exact ⟨_, rfl, rfl⟩

theorem handle_set_none (w' : World) {i : Nat} (hw' : w'.handles = w.handles.set i none)
    (j : Nat) : w'.handle j = if i = j then none else w.handle j := by
  unfold handle
  rw [hw']
  split_ifs with hij
  · subst hij
    by_cases hi : i < w.handles.length
    · simp [List.getElem?_set_self hi]
    · rw [List.getElem?_eq_none (by rw [List.length_set]; omega)]
      rfl
  · rw [List.getElem?_set_ne hij]

theorem run_destroys (w : World) (now : TimePoint) {is : List Nat} (hnodup : is.Nodup)
    (hsome : ∀ i ∈ is, (w.handle i).isSome) :
    ∃ w', w.run (is.map fun i => .destroy i now) = some w' ∧
      (∀ j, w'.handle j = if j ∈ is then none else w.handle j) ∧
      w'.segment.spans.length = w.segment.spans.length := by
  induction is generalizing w with
  | nil => exact ⟨w, rfl, fun _ => rfl, rfl⟩
  | cons i is ih =>
    obtain ⟨hi, hnodup⟩ := List.nodup_cons.mp hnodup
    obtain ⟨span, hspan⟩ := Option.isSome_iff_exists.mp (hsome i (List.mem_cons_self _ _))
    obtain ⟨w₁, hstep, hhandles⟩ := handle_destroy hspan now
    have hhandle := handle_set_none w₁ hhandles
    have hlen : w₁.segment.spans.length = w.segment.spans.length := by
      rcases step_counts hstep with ⟨-, hchild, -⟩ | ⟨-, -, hlen, -⟩ | ⟨-, -, -, hlen, -⟩
      · simp [Action.isCreateChild] at hchild
      all_goals exact hlen
    obtain ⟨w', hrun, hw', hlen'⟩ := ih w₁ hnodup fun j hj => by
      rw [hhandle, if_neg (fun (h : i = j) => hi (h ▸ hj))]
      exact hsome j (List.mem_cons_of_mem _ hj)
    refine ⟨w', by simp [run, hstep, hrun], fun j => ?_, hlen'.trans hlen⟩
    rw [hw', hhandle]
    by_cases hj : j = i
    · subst hj; simp [hi]
    · simp [hj, Ne.symm hj]

/-- The destruction of every handle not destroyed yet, in index order, as when they all go
out of scope. -/
def destroyAll (w : World) (now : TimePoint) : List Action :=
  ((List.range w.handles.length).filter fun i => (w.handle i).isSome).map fun i => .destroy i now

theorem liveHandles_eq_zero (h : ∀ j, w.handle j = none) : w.liveHandles = 0 := by
  refine List.countP_eq_zero.mpr fun handle hmem => ?_
  obtain ⟨j, hj, rfl⟩ := List.getElem_of_mem hmem
  have := h j
  simp [World.handle, List.getElem?_eq_getElem hj] at this
  simp [this]

end Finishing

theorem run_destroyAll (samplers : Samplers) (defaults : SpanDefaults)
    (decision : Option SamplingDecision) (root : SpanData) (actions : List Action) (w : World)
    (hw : (World.init samplers defaults decision root).run actions = some w) (now : TimePoint) :
    ∃ w', w.run (w.destroyAll now) = some w' ∧ w'.liveHandles = 0 ∧ w'.segment.Complete ∧
      w'.segment.spans.length = w.segment.spans.length ∧ w'.collected = [w'.segment.spans] := by
  obtain ⟨w', hrun, hhandle, hlen⟩ := run_destroys w now
    ((List.nodup_range _).filter _) fun i hi => (List.mem_filter.mp hi).2
  have hinv := run_induction Invariant (fun _ _ _ hw h => hw.step h)
    (Invariant.run samplers defaults decision root hw) hrun
  have hlive : w'.liveHandles = 0 := liveHandles_eq_zero fun j => by
    rw [hhandle]
    split_ifs with hj
    · rfl
    · simp only [List.mem_filter, List.mem_range, decide_eq_true_eq, not_and] at hj
      by_cases hlt : j < w.handles.length
      · simpa using hj hlt
      · simp [World.handle, List.getElem?_eq_none (by omega : w.handles.length ≤ j)]
  have hcomplete : w'.segment.Complete := by
    have := hinv.count
    unfold TraceSegment.Complete
    omega
  exact ⟨w', hrun, hlive, hcomplete, hlen, by rw [hinv.collected, if_pos hcomplete]⟩

theorem run_destroyAll_child :
    ∃ w, (World.init .noRules {} none {}).run [.createChild 0 {} 8 ⟨0, 0⟩, .move 1] = some w ∧
      ∃ w', w.run (w.destroyAll ⟨0, 1⟩) = some w' ∧ w'.liveHandles = 0 ∧ w'.segment.Complete ∧
        w'.segment.spans.length = w.segment.spans.length ∧ w'.collected = [w'.segment.spans] :=
  ⟨_, rfl, run_destroyAll .noRules {} none {} [.createChild 0 {} 8 ⟨0, 0⟩, .move 1] _ rfl ⟨0, 1⟩⟩

end World

end DdTrace.Tracing
