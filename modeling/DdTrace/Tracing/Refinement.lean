import DdTrace.Tracing.Ownership

/-! The segment as its user sees it: a table of spans, each an object of its own, holding the
data it was registered with, the calls made on it in order and, once it has finished, the
clock reading of its destruction. The world of span.cpp, with its handles, moves and shared
counter, refines this table: a handle call is the event on the span its handle refers to, and
a move is no event. The segment's spans are the table's until the last one finishes; then
they are what the finalization of `span_finished` makes of them. -/

namespace DdTrace.Tracing

/-- A span as its user sees it, whichever handle refers to it: the data it was registered
with, the calls made on it in order, and, once it has finished, the clock reading of its
destruction. -/
structure SpanRecord where
  registered : SpanData
  calls : List SpanOp
  finishedAt : Option TimePoint

theorem SpanOp.applyAll_ids (ops : List SpanOp) (data : SpanData) :
    (SpanOp.applyAll ops data).ids = data.ids := by
  induction ops generalizing data with
  | nil => rfl
  | cons op ops ih => exact (ih (op.apply data)).trans (SpanOp.apply_ids op data)

namespace SpanRecord

/-- The end time the calls leave: that of the last `set_end_time`, if any. -/
def endTime (record : SpanRecord) : Option Int :=
  record.calls.foldl (fun endTime op => op.endTime endTime) none

/-- The span's data: the registered data with the calls applied in order and, once the span
has finished, its duration, from the start to the end time the calls set or else to the
destruction. -/
def data (record : SpanRecord) : SpanData :=
  let data := SpanOp.applyAll record.calls record.registered
  match record.finishedAt, record.endTime with
  | none, _ => data
  | some _, some endTime => { data with duration := endTime - data.start.tick }
  | some now, none => { data with duration := now.sub data.start }

variable {record : SpanRecord}

theorem data_of_unfinished (h : record.finishedAt = none) :
    record.data = SpanOp.applyAll record.calls record.registered := by
  simp [data, h]

theorem endTime_call (op : SpanOp) :
    { record with calls := record.calls ++ [op] }.endTime = op.endTime record.endTime := by
  simp [endTime, List.foldl_append]

theorem data_call (h : record.finishedAt = none) (op : SpanOp) :
    { record with calls := record.calls ++ [op] }.data = op.apply record.data := by
  simp [data_of_unfinished h, data, h, SpanOp.applyAll, List.foldl_append]

theorem data_finish (h : record.finishedAt = none) {span : Span}
    (hend : record.endTime = span.endTime) (now : TimePoint) :
    { record with finishedAt := some now }.data = span.finish now record.data := by
  have hend' : { record with finishedAt := some now }.endTime = span.endTime := hend
  rw [data_of_unfinished h, data, hend', Span.finish]
  cases span.endTime <;> rfl

theorem tags_data (record : SpanRecord) :
    record.data.tags = (SpanOp.applyAll record.calls record.registered).tags := by
  unfold data
  split <;> rfl

theorem data_ids (record : SpanRecord) : record.data.ids = record.registered.ids := by
  have h := SpanOp.applyAll_ids record.calls record.registered
  unfold data
  split <;> exact h

end SpanRecord

/-- A handle call, its handle resolved to the span it refers to. -/
inductive SpanEvent
  | createChild (parent : Nat) (config : SpanConfig) (spanId : UInt64) (now : TimePoint)
  | call (span : Nat) (op : SpanOp)
  | finish (span : Nat) (now : TimePoint)

/-- The spans of a trace segment, each an object of its own. -/
structure SpanTable where
  defaults : SpanDefaults
  records : List SpanRecord

namespace SpanTable

def init (defaults : SpanDefaults) (root : SpanData) : SpanTable := ⟨defaults, [⟨root, [], none⟩]⟩

/-- A child's data: fresh from the defaults and the config, with the parent's trace id, the
parent's span id as its parent id, and its own span id. -/
def childData (defaults : SpanDefaults) (parent : SpanData) (config : SpanConfig)
    (spanId : UInt64) (now : TimePoint) : SpanData :=
  { ({} : SpanData).applyConfig defaults config now with
    traceId := parent.traceId, parentId := parent.spanId, spanId }

def unfinished (table : SpanTable) (k : Nat) : Option SpanRecord :=
  table.records[k]?.filter fun record => record.finishedAt.isNone

/-- An event on a span that has not finished; a finished span receives none. -/
def step (table : SpanTable) : SpanEvent → Option SpanTable
  | .createChild parent config spanId now => (table.unfinished parent).map fun record =>
    { table with records :=
      table.records ++ [⟨childData table.defaults record.data config spanId now, [], none⟩] }
  | .call k op => (table.unfinished k).map fun record =>
    { table with records := table.records.set k { record with calls := record.calls ++ [op] } }
  | .finish k now => (table.unfinished k).map fun record =>
    { table with records := table.records.set k { record with finishedAt := some now } }

def run (table : SpanTable) : List SpanEvent → Option SpanTable
  | [] => some table
  | e :: events => (table.step e).bind fun table => table.run events

def Complete (table : SpanTable) : Prop := ∀ record ∈ table.records, record.finishedAt.isSome

instance : DecidablePred Complete := fun _ => inferInstanceAs (Decidable (∀ _ ∈ _, _))

/-- The spans' data, before the segment's finalization. -/
def batch (table : SpanTable) : List SpanData := table.records.map SpanRecord.data

variable {table table' : SpanTable} {k : Nat} {record : SpanRecord}

theorem unfinished_eq_some :
    table.unfinished k = some record ↔ table.records[k]? = some record ∧ record.finishedAt = none := by
  simp [unfinished, Option.filter_eq_some]

theorem complete_iff :
    table.Complete ↔ table.records.countP (fun record => record.finishedAt.isSome) =
      table.records.length := by
  rw [List.countP_eq_length]
  simp [Complete]

theorem not_complete_of_unfinished (h : table.unfinished k = some record) : ¬ table.Complete :=
  fun hc => by
    obtain ⟨hk, hfin⟩ := unfinished_eq_some.mp h
    simpa [hfin] using hc record (List.getElem?_mem hk)

theorem run_append (events events' : List SpanEvent) :
    table.run (events ++ events') = (table.run events).bind fun table => table.run events' := by
  induction events generalizing table with
  | nil => rfl
  | cons e events ih =>
    show ((table.step e).bind fun table => table.run (events ++ events')) = _
    simp only [run, ih, Option.bind_assoc]

theorem run_induction (P : SpanTable → Prop)
    (hstep : ∀ table e table', P table → table.step e = some table' → P table')
    {events : List SpanEvent} (ht : P table) (hrun : table.run events = some table') :
    P table' := by
  induction events generalizing table with
  | nil => cases hrun; exact ht
  | cons e events ih =>
    obtain ⟨t₁, h₁, hrun⟩ := Option.bind_eq_some.mp hrun
    exact ih (hstep table e t₁ ht h₁) hrun

theorem step_record {e : SpanEvent} (h : table.step e = some table')
    (hk : table.records[k]? = some record) :
    ∃ record', table'.records[k]? = some record' ∧ record'.registered = record.registered ∧
      (record.finishedAt.isSome → record' = record) := by
  have hset : ∀ (j : Nat) (r r' : SpanRecord), table.unfinished j = some r →
      r'.registered = r.registered →
      ∃ record', (table.records.set j r')[k]? = some record' ∧
        record'.registered = record.registered ∧ (record.finishedAt.isSome → record' = record) := by
    intro j r r' hj hreg
    obtain ⟨hj, hfin⟩ := unfinished_eq_some.mp hj
    rw [List.getElem?_set]
    by_cases hjk : j = k
    · subst hjk
      rw [hk] at hj
      cases hj
      simp [(List.getElem?_eq_some_iff.mp hk).1, hreg, hfin]
    · simp [hjk, hk]
  cases e with
  | createChild parent config spanId now =>
    obtain ⟨r, -, rfl⟩ := Option.map_eq_some'.mp h
    exact ⟨record, by rw [List.getElem?_append_left (List.getElem?_eq_some_iff.mp hk).1, hk],
      rfl, fun _ => rfl⟩
  | call j op =>
    obtain ⟨r, hj, rfl⟩ := Option.map_eq_some'.mp h
    exact hset j r _ hj rfl
  | finish j now =>
    obtain ⟨r, hj, rfl⟩ := Option.map_eq_some'.mp h
    exact hset j r _ hj rfl

theorem run_record {events : List SpanEvent} (h : table.run events = some table')
    (hk : table.records[k]? = some record) :
    ∃ record', table'.records[k]? = some record' ∧ record'.registered = record.registered ∧
      (record.finishedAt.isSome → record' = record) := by
  refine run_induction (fun table => ∃ record', table.records[k]? = some record' ∧
    record'.registered = record.registered ∧ (record.finishedAt.isSome → record' = record))
    (fun t e t' ⟨r, hr, hreg, hfin⟩ hstep => ?_) ⟨record, hk, rfl, fun _ => rfl⟩ h
  obtain ⟨r', hr', hreg', hfin'⟩ := step_record hstep hr
  exact ⟨r', hr', hreg'.trans hreg, fun hf => by
    obtain rfl := hfin hf
    exact hfin' hf⟩

end SpanTable

theorem map_modify_of_getElem? {α β : Type} {f : α → β} {g : β → β} {l : List α} {k : Nat}
    {x y : α} (hx : l[k]? = some x) (hy : f y = g (f x)) :
    (l.map f).modify g k = (l.set k y).map f := by
  refine List.ext_getElem? fun n => ?_
  rw [List.getElem?_modify, List.getElem?_map, List.getElem?_map, List.getElem?_set]
  by_cases hkn : k = n
  · subst hkn
    simp [hx, hy, (List.getElem?_eq_some_iff.mp hx).1]
  · simp [hkn]

namespace World

/-- The event a handle call is on the span its handle refers to: moving a handle is none, and
so is destroying a moved-from one. -/
def resolve (w : World) : Action → Option SpanEvent
  | .createChild i config spanId now =>
    (w.handle i).map fun span => .createChild span.data config spanId now
  | .move _ => none
  | .destroy i now => (liveSpan (w.handle i)).map fun k => .finish k now
  | .call i op => (w.handle i).map fun span => .call span.data op

/-- The span events of a run, up to its first call that is not made. -/
def events (w : World) : List Action → List SpanEvent
  | [] => []
  | a :: actions =>
    match w.step a with
    | some w' => (w.resolve a).toList ++ w'.events actions
    | none => []

/-- The world implements the table of spans, from the sampling decision its segment was
created with. -/
structure Refines (decision : Option SamplingDecision) (w : World) (table : SpanTable) : Prop where
  /-- No span has two live handles. -/
  owned : w.Owned
  defaults : w.segment.defaults = table.defaults
  /-- Until every span has finished, the segment's spans are the records' data and its
  decision is the one it was created with. -/
  spans : ¬ table.Complete → w.segment.spans = table.batch ∧ w.segment.samplingDecision = decision
  /-- Once every span has finished, the segment is the finalization of those, from that
  decision. -/
  finalized : table.Complete → ∃ segment : TraceSegment, segment.samplingDecision = decision ∧
    segment.spans = table.batch ∧ w.segment = segment.finalize
  /-- A span has a live handle exactly while its record has not finished. -/
  live : ∀ k record, table.records[k]? = some record → (k ∈ w.liveSpans ↔ record.finishedAt = none)
  /-- A live handle holds the end time its span's calls set. -/
  endTime : ∀ j span, w.handle j = some span → span.traceSegment = true →
    ∃ record, table.records[span.data]? = some record ∧ record.endTime = span.endTime
  /-- The counter counts the finished records. -/
  numFinishedSpans :
    w.segment.numFinishedSpans = table.records.countP fun record => record.finishedAt.isSome

variable {decision : Option SamplingDecision} {w w' : World} {table : SpanTable} {i : Nat}
  {span : Span}

theorem Refines.init (samplers : Samplers) (defaults : SpanDefaults)
    (decision : Option SamplingDecision) (root : SpanData) :
    (World.init samplers defaults decision root).Refines decision (SpanTable.init defaults root) where
  owned := Owned.init samplers defaults decision root
  defaults := rfl
  spans _ := ⟨rfl, rfl⟩
  finalized hc := absurd hc (SpanTable.not_complete_of_unfinished (k := 0) rfl)
  live k record hk := by
    obtain ⟨hlt, rfl⟩ := List.getElem?_eq_some_iff.mp hk
    obtain rfl : k = 0 := by simpa [SpanTable.init] using hlt
    simp [liveSpans, World.init, SpanTable.init]
  endTime j span h _ := by
    obtain ⟨hj, hget⟩ := List.getElem?_eq_some_iff.mp (handle_eq_some.mp h)
    obtain rfl : j = 0 := by simpa [World.init] using hj
    cases hget
    exact ⟨_, rfl, rfl⟩
  numFinishedSpans := rfl

theorem Refines.map_withoutNumericTags (hr : w.Refines decision table) :
    w.segment.spans.map SpanData.withoutNumericTags = table.batch.map SpanData.withoutNumericTags := by
  by_cases hc : table.Complete
  · obtain ⟨segment, -, hspans, hw⟩ := hr.finalized hc
    rw [hw, TraceSegment.map_withoutNumericTags_finalize, hspans]
  · rw [(hr.spans hc).1]

theorem Refines.getElem?_map (hr : w.Refines decision table) {β : Type} (f : SpanData → β)
    (hf : ∀ data, f data.withoutNumericTags = f data) (k : Nat) :
    w.segment.spans[k]?.map f = table.records[k]?.map fun record => f record.data := by
  have h := congrArg (·[k]?) hr.map_withoutNumericTags
  simp only [List.getElem?_map, SpanTable.batch] at h
  calc w.segment.spans[k]?.map f
      = (w.segment.spans[k]?.map SpanData.withoutNumericTags).map f := by
        rw [Option.map_map]; simp only [Function.comp_def, hf]
    _ = (table.records[k]?.map SpanRecord.data |>.map SpanData.withoutNumericTags).map f := by
        rw [h]
    _ = table.records[k]?.map fun record => f record.data := by
        simp only [Option.map_map, Function.comp_def, hf]

theorem Refines.length_spans (hr : w.Refines decision table) :
    w.segment.spans.length = table.records.length := by
  simpa [SpanTable.batch] using congrArg List.length hr.map_withoutNumericTags

theorem Refines.complete_iff (hr : w.Refines decision table) :
    w.segment.Complete ↔ table.Complete := by
  rw [TraceSegment.Complete, hr.numFinishedSpans, hr.length_spans, SpanTable.complete_iff]

theorem Refines.record (hr : w.Refines decision table) (h : w.handle i = some span)
    (hlive : span.traceSegment = true) :
    ∃ record, table.unfinished span.data = some record ∧ record.endTime = span.endTime ∧
      w.segment.spans[span.data]? = some record.data := by
  obtain ⟨record, hrec, hend⟩ := hr.endTime i span h hlive
  have hunf : table.unfinished span.data = some record := SpanTable.unfinished_eq_some.mpr
    ⟨hrec, (hr.live _ _ hrec).mp (mem_liveSpans h hlive)⟩
  refine ⟨record, hunf, hend, ?_⟩
  rw [(hr.spans (SpanTable.not_complete_of_unfinished hunf)).1, SpanTable.batch, List.getElem?_map,
    hrec]
  rfl

theorem Refines.endTime_set (hr : w.Refines decision table) (h : w.handle i = some span)
    (hlive : span.traceSegment = true) {b : Option Span} {record : SpanRecord}
    (hb : ∀ span', b = some span' → span'.traceSegment = true →
      span'.data = span.data ∧ record.endTime = span'.endTime)
    {j : Nat} {span' : Span} (h' : (w.handles.set i b)[j]?.join = some span')
    (hlive' : span'.traceSegment = true) :
    ∃ r, (table.records.set span.data record)[span'.data]? = some r ∧ r.endTime = span'.endTime := by
  rw [getElem?_join_set (handle_lt h)] at h'
  split_ifs at h' with hij
  · obtain ⟨hdata, hend⟩ := hb span' h' hlive'
    obtain ⟨r, hr', -⟩ := hr.endTime i span h hlive
    exact ⟨record, by rw [hdata, List.getElem?_set_self (List.getElem?_eq_some_iff.mp hr').1], hend⟩
  · rw [List.getElem?_set_ne (hr.owned.data_ne h hlive h' hlive' hij).symm]
    exact hr.endTime j span' h' hlive'

section Simulation

variable {w' : World} (hr : w.Refines decision table) (howned : w'.Owned)

include hr howned

theorem Refines.createChild {config : SpanConfig} {spanId : UInt64} {now : TimePoint}
    (h : w.handle i = some span) (hlive : span.traceSegment = true) {segment : TraceSegment}
    {child : Span} (hchild : span.createChild w.segment config spanId now = some (segment, child))
    (hw' : w' = { w with segment, handles := w.handles ++ [some child] }) :
    ∃ table', table.step (.createChild span.data config spanId now) = some table' ∧
      w'.Refines decision table' := by
  subst hw'
  obtain ⟨data, hdata, rfl, rfl⟩ := Span.createChild_eq_some hchild
  obtain ⟨record, hunf, -, hspans⟩ := hr.record h hlive
  obtain rfl : data = record.data := Option.some.inj (hdata.symm.trans hspans)
  obtain ⟨hbatch, hdecision⟩ := hr.spans (SpanTable.not_complete_of_unfinished hunf)
  have hlen := hr.length_spans
  let table' : SpanTable := { table with records := table.records ++
      [⟨SpanTable.childData table.defaults record.data config spanId now, [], none⟩] }
  have hnc : ¬ table'.Complete := SpanTable.not_complete_of_unfinished
    (SpanTable.unfinished_eq_some.mpr ⟨List.getElem?_concat_length .., rfl⟩)
  refine ⟨table', by rw [SpanTable.step, hunf]; rfl, howned, hr.defaults,
    fun _ => ⟨?_, hdecision⟩, fun hc => absurd hc hnc, ?_, ?_, ?_⟩
  · simp [table', TraceSegment.registerSpan, hbatch, SpanTable.batch, SpanRecord.data,
      SpanTable.childData, hr.defaults, SpanOp.applyAll]
  · intro k r hk
    rw [liveSpans, liveSpans_createChild, hlen, List.mem_append, List.mem_singleton]
    by_cases hlt : k < table.records.length
    · rw [List.getElem?_append_left hlt] at hk
      rw [← hr.live k r hk]
      exact or_iff_left hlt.ne
    · obtain rfl : k = table.records.length := by
        have := (List.getElem?_eq_some_iff.mp hk).1
        simp only [table', List.length_append, List.length_singleton] at this
        omega
      rw [List.getElem?_concat_length] at hk
      cases hk
      simp
  · intro j span' h' hlive''
    change (w.handles ++ [some _])[j]?.join = some span' at h'
    rw [getElem?_join_append] at h'
    split_ifs at h' with hj hj'
    · obtain ⟨r, hr', hend⟩ := hr.endTime j span' h' hlive''
      exact ⟨r, by rw [List.getElem?_append_left (List.getElem?_eq_some_iff.mp hr').1, hr'], hend⟩
    · cases h'
      exact ⟨⟨SpanTable.childData table.defaults record.data config spanId now, [], none⟩,
        by simp [table', hlen], rfl⟩
  · simp [table', TraceSegment.registerSpan, hr.numFinishedSpans, List.countP_append]

theorem Refines.move (h : w.handle i = some span)
    (hw' : w' = { w with
      handles := w.handles.set i (some { span with traceSegment := false }) ++ [some span] }) :
    w'.Refines decision table := by
  subst hw'
  refine ⟨howned, hr.defaults, hr.spans, hr.finalized,
    fun k r hk => (liveSpans_move h).mem_iff.trans (hr.live k r hk),
    fun j span' h' hlive' => ?_, hr.numFinishedSpans⟩
  change (w.handles.set i _ ++ [some span])[j]?.join = some span' at h'
  rw [getElem?_join_append, getElem?_join_set (handle_lt h), List.length_set] at h'
  split_ifs at h' with hj hij
  · cases h'
    simp at hlive'
  · exact hr.endTime j span' h' hlive'
  · cases h'
    exact hr.endTime i span h hlive'

theorem Refines.destroyDead (h : w.handle i = some span) (hlive : span.traceSegment = false)
    (hw' : w' = { w with handles := w.handles.set i none }) : w'.Refines decision table := by
  subst hw'
  refine ⟨howned, hr.defaults, hr.spans, hr.finalized,
    fun k r hk => (liveSpans_destroyDead h hlive).mem_iff.trans (hr.live k r hk),
    fun j span' h' hlive' => ?_, hr.numFinishedSpans⟩
  change (w.handles.set i none)[j]?.join = some span' at h'
  rw [getElem?_join_set (handle_lt h)] at h'
  split_ifs at h'
  exact hr.endTime j span' h' hlive'

theorem Refines.destroyLive {now : TimePoint} (h : w.handle i = some span)
    (hlive : span.traceSegment = true)
    (hw' : w' = { w with
      segment := (span.destroy w.segment now).1
      handles := w.handles.set i none
      collected := w.collected ++ (span.destroy w.segment now).2.toList }) :
    ∃ table', table.step (.finish span.data now) = some table' ∧ w'.Refines decision table' := by
  subst hw'
  obtain ⟨record, hunf, hend, -⟩ := hr.record h hlive
  obtain ⟨hrec, hfin⟩ := SpanTable.unfinished_eq_some.mp hunf
  obtain ⟨hbatch, hdecision⟩ := hr.spans (SpanTable.not_complete_of_unfinished hunf)
  have hd := (List.getElem?_eq_some_iff.mp hrec).1
  let table' : SpanTable := { table with
    records := table.records.set span.data { record with finishedAt := some now } }
  have hspans : w.segment.spans.modify (span.finish now) span.data = table'.batch := by
    rw [hbatch]
    exact map_modify_of_getElem? hrec (SpanRecord.data_finish hfin hend now)
  have hnf : w.segment.numFinishedSpans + 1 =
      table'.records.countP fun record => record.finishedAt.isSome := by
    rw [hr.numFinishedSpans, List.countP_set _ _ _ _ hd]
    simp [(List.getElem?_eq_some_iff.mp hrec).2, hfin]
  have hcomplete : ¬ table'.Complete ↔
      w.segment.numFinishedSpans + 1 < (w.segment.spans.modify (span.finish now) span.data).length := by
    rw [SpanTable.complete_iff, ← hnf, List.length_modify, hr.length_spans, List.length_set]
    have := List.countP_le_length (fun record : SpanRecord => record.finishedAt.isSome)
      (l := table'.records)
    simp only [table', List.length_set] at this hnf
    omega
  refine ⟨table', by rw [SpanTable.step, hunf]; rfl,
    howned, by simp [Span.destroy_live hlive, hr.defaults], fun hc => ?_, fun hc => ?_,
    fun k r hk => ?_, fun j span' h' hlive' => ?_, ?_⟩
  · rw [Span.destroy_live hlive, TraceSegment.spanFinished_of_lt]
    · exact ⟨hspans, hdecision⟩
    · exact hcomplete.mp hc
  · refine ⟨{ w.segment with
      spans := w.segment.spans.modify (span.finish now) span.data
      numFinishedSpans := w.segment.numFinishedSpans + 1 }, hdecision, hspans, ?_⟩
    rw [Span.destroy_live hlive, TraceSegment.spanFinished_of_not_lt]
    exact fun hlt => hcomplete.mpr hlt hc
  · rw [List.getElem?_set] at hk
    split_ifs at hk with hdk
    · subst hdk
      cases hk
      exact iff_of_false (hr.owned.not_mem_destroy h hlive) (by simp)
    · rw [← hr.live k r hk, ← (liveSpans_destroy h hlive).mem_iff, List.mem_append,
        List.mem_singleton]
      exact (or_iff_left (Ne.symm hdk)).symm
  · exact hr.endTime_set h hlive (fun _ hb => by cases hb) h' hlive'
  · rw [Span.destroy_live hlive, TraceSegment.spanFinished_numFinishedSpans]
    exact hnf

theorem Refines.call {op : SpanOp} (h : w.handle i = some span) (hlive : span.traceSegment = true)
    (hw' : w' = { w with
      segment := { w.segment with spans := w.segment.spans.modify op.apply span.data }
      handles := w.handles.set i (some { span with endTime := op.endTime span.endTime }) }) :
    ∃ table', table.step (.call span.data op) = some table' ∧ w'.Refines decision table' := by
  subst hw'
  obtain ⟨record, hunf, hend, -⟩ := hr.record h hlive
  obtain ⟨hrec, hfin⟩ := SpanTable.unfinished_eq_some.mp hunf
  obtain ⟨hbatch, hdecision⟩ := hr.spans (SpanTable.not_complete_of_unfinished hunf)
  have hd := (List.getElem?_eq_some_iff.mp hrec).1
  let table' : SpanTable := { table with
    records := table.records.set span.data { record with calls := record.calls ++ [op] } }
  have hnc : ¬ table'.Complete := SpanTable.not_complete_of_unfinished
    (SpanTable.unfinished_eq_some.mpr ⟨List.getElem?_set_self hd, hfin⟩)
  refine ⟨table', by rw [SpanTable.step, hunf]; rfl,
    howned, hr.defaults, fun _ => ⟨?_, hdecision⟩, fun hc => absurd hc hnc,
    fun k r hk => ?_, fun j span' h' hlive' => ?_, ?_⟩
  · rw [hbatch]
    exact map_modify_of_getElem? hrec (SpanRecord.data_call hfin op)
  · rw [List.getElem?_set] at hk
    refine (liveSpans_call h hlive _).mem_iff.trans ?_
    split_ifs at hk with hdk
    · subst hdk
      cases hk
      rw [hr.live _ _ hrec]
    · exact hr.live k r hk
  · refine hr.endTime_set h hlive (fun _ hb _ => ?_) h' hlive'
    cases hb
    exact ⟨rfl, by rw [SpanRecord.endTime_call, hend]⟩
  · rw [hr.numFinishedSpans, List.countP_set _ _ _ _ hd]
    simp [(List.getElem?_eq_some_iff.mp hrec).2, hfin]

end Simulation

theorem Refines.step (hr : w.Refines decision table) {a : Action} (h : w.step a = some w') :
    ∃ table', table.run (w.resolve a).toList = some table' ∧ w'.Refines decision table' := by
  have howned := hr.owned.step h
  rcases step_cases h with
    ⟨i, config, spanId, now, span, segment, child, rfl, hspan, hlive, hchild, hw'⟩ |
    ⟨i, span, rfl, hspan, hw'⟩ | ⟨i, now, span, rfl, hspan, hlive, hw'⟩ |
    ⟨i, now, span, rfl, hspan, hlive, hw'⟩ | ⟨i, op, span, rfl, hspan, hlive, hw'⟩
  · obtain ⟨table', ht', hr'⟩ := hr.createChild howned hspan hlive hchild hw'
    exact ⟨table', by simp [resolve, hspan, SpanTable.run, ht'], hr'⟩
  · exact ⟨table, rfl, hr.move howned hspan hw'⟩
  · exact ⟨table, by simp [resolve, hspan, hlive, SpanTable.run], hr.destroyDead howned hspan hlive hw'⟩
  · obtain ⟨table', ht', hr'⟩ := hr.destroyLive howned hspan hlive hw'
    exact ⟨table', by simp [resolve, hspan, hlive, SpanTable.run, ht'], hr'⟩
  · obtain ⟨table', ht', hr'⟩ := hr.call howned hspan hlive hw'
    exact ⟨table', by simp [resolve, hspan, SpanTable.run, ht'], hr'⟩

theorem Refines.run (hr : w.Refines decision table) {actions : List Action}
    (h : w.run actions = some w') :
    ∃ table', table.run (w.events actions) = some table' ∧ w'.Refines decision table' := by
  induction actions generalizing w table with
  | nil => cases h; exact ⟨table, rfl, hr⟩
  | cons a actions ih =>
    obtain ⟨w₁, h₁, hrun⟩ := Option.bind_eq_some.mp h
    obtain ⟨t₁, ht₁, hr₁⟩ := hr.step h₁
    obtain ⟨t', ht', hr'⟩ := ih hr₁ hrun
    refine ⟨t', ?_, hr'⟩
    simp only [events, h₁, SpanTable.run_append, ht₁, Option.some_bind, ht']

theorem lookupTag_run (samplers : Samplers) (defaults : SpanDefaults)
    (decision : Option SamplingDecision) (root : SpanData) (actions : List Action) (w : World)
    (hw : (World.init samplers defaults decision root).run actions = some w) :
    ∃ table, (SpanTable.init defaults root).run
        ((World.init samplers defaults decision root).events actions) = some table ∧
      ∀ (k : Nat) (record : SpanRecord), table.records[k]? = some record → ∀ name,
        (isInternalTag name = true →
          w.segment.spans[k]?.map (fun data : SpanData => data.tags.lookup name) =
            some (record.registered.tags.lookup name)) ∧
        w.segment.spans[k]?.map (fun data : SpanData => data.lookupTag name) =
          some (if isInternalTag name then none
            else SpanOp.lastWrite name record.calls (record.registered.tags.lookup name)) := by
  obtain ⟨table, ht, hr⟩ := (Refines.init samplers defaults decision root).run hw
  refine ⟨table, ht, fun k record hk name => ?_⟩
  have hlookup := SpanOp.lookup_applyAll record.calls record.registered name
  rw [hr.getElem?_map (fun data => data.tags.lookup name) (fun _ => rfl),
    hr.getElem?_map (fun data => data.lookupTag name) (fun _ => rfl), hk]
  simp only [Option.map_some', SpanData.lookupTag, SpanRecord.tags_data, hlookup,
    Option.some.injEq]
  exact ⟨fun h => by rw [if_pos h], by split <;> rfl⟩

theorem lookupTag_run_nested :
    ∃ w, (World.init .noRules {} none { traceId := 7, spanId := 7 }).run nestedCalls = some w ∧
      ∃ table, (SpanTable.init {} { traceId := 7, spanId := 7 }).run
          ((World.init .noRules {} none { traceId := 7, spanId := 7 }).events nestedCalls) =
            some table ∧
        ∀ (k : Nat) (record : SpanRecord), table.records[k]? = some record → ∀ name,
          (isInternalTag name = true →
            w.segment.spans[k]?.map (fun data : SpanData => data.tags.lookup name) =
              some (record.registered.tags.lookup name)) ∧
          w.segment.spans[k]?.map (fun data : SpanData => data.lookupTag name) =
            some (if isInternalTag name then none
              else SpanOp.lastWrite name record.calls (record.registered.tags.lookup name)) :=
  ⟨_, rfl, lookupTag_run .noRules {} none { traceId := 7, spanId := 7 } nestedCalls _ rfl⟩

end World

def Span.id (span : Span) (segment : TraceSegment) : Option UInt64 :=
  segment.spans[span.data]?.map SpanData.spanId

def Span.traceId (span : Span) (segment : TraceSegment) : Option UInt64 :=
  segment.spans[span.data]?.map SpanData.traceId

namespace World

theorem ids_run (samplers : Samplers) (defaults : SpanDefaults)
    (decision : Option SamplingDecision) (root : SpanData) (actions : List Action) (w : World)
    (hw : (World.init samplers defaults decision root).run actions = some w) (rest : List Action)
    (w' : World) (hrest : w.run rest = some w') (span : Span)
    (hspan : span.data < w.segment.spans.length) :
    span.id w'.segment = span.id w.segment ∧ span.traceId w'.segment = span.traceId w.segment ∧
      (w'.segment.spans[span.data]?.map SpanData.parentId =
        w.segment.spans[span.data]?.map SpanData.parentId) := by
  obtain ⟨table, -, hr⟩ := (Refines.init samplers defaults decision root).run hw
  obtain ⟨t', ht', hr'⟩ := hr.run hrest
  rw [hr.length_spans] at hspan
  obtain ⟨r', hr'', hreg, -⟩ := SpanTable.run_record ht' (List.getElem?_eq_getElem hspan)
  have hids : r'.data.ids = table.records[span.data].data.ids := by
    rw [SpanRecord.data_ids, SpanRecord.data_ids, hreg]
  simp only [SpanData.ids, Prod.mk.injEq] at hids
  simp only [Span.id, Span.traceId, hr'.getElem?_map SpanData.spanId (fun _ => rfl),
    hr.getElem?_map SpanData.spanId (fun _ => rfl),
    hr'.getElem?_map SpanData.traceId (fun _ => rfl), hr.getElem?_map SpanData.traceId (fun _ => rfl),
    hr'.getElem?_map SpanData.parentId (fun _ => rfl),
    hr.getElem?_map SpanData.parentId (fun _ => rfl), hr'', List.getElem?_eq_getElem hspan,
    Option.map_some', hids, and_self]

theorem ids_run_child :
    ∃ w, (World.init .noRules {} none {}).run [.createChild 0 {} 8 ⟨0, 0⟩] = some w ∧
      ∃ w', w.run [.move 1, .call 2 (.setTag "k".toList "v".toList), .destroy 2 ⟨0, 1⟩] = some w' ∧
      (⟨true, 1, none⟩ : Span).id w'.segment = (⟨true, 1, none⟩ : Span).id w.segment ∧
      (⟨true, 1, none⟩ : Span).traceId w'.segment = (⟨true, 1, none⟩ : Span).traceId w.segment ∧
      (w'.segment.spans[1]?.map SpanData.parentId = w.segment.spans[1]?.map SpanData.parentId) :=
  ⟨_, rfl, _, rfl, ids_run .noRules {} none {} [.createChild 0 {} 8 ⟨0, 0⟩] _ rfl
    [.move 1, .call 2 (.setTag "k".toList "v".toList), .destroy 2 ⟨0, 1⟩] _ rfl ⟨true, 1, none⟩
    (by decide)⟩

end World

end DdTrace.Tracing
