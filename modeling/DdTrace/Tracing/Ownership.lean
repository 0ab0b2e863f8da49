import DdTrace.Tracing.TraceSegment

/-! Who owns a span. A `Span` handle is move-only: `Span::create_child` returns the one live
handle of the new span, moving a handle hands the span on and leaves the source null, and
`Span::~Span` of the live handle finishes the span. So no span has two live handles, and the
finished spans are exactly those no live handle refers to. -/

namespace DdTrace.Tracing

theorem filterMap_set_perm {α β : Type} [DecidableEq β] (f : α → Option β) {l : List α} {i : Nat}
    (hi : i < l.length) (a : α) :
    List.Perm ((l.set i a).filterMap f ++ (f l[i]).toList) (l.filterMap f ++ (f a).toList) := by
  have hcons : ∀ (x : α) (r : List α), (x :: r).filterMap f = (f x).toList ++ r.filterMap f :=
    fun x r => by cases h : f x <;> simp [h]
  have hsplit : l.filterMap f =
      (l.take i).filterMap f ++ ((f l[i]).toList ++ (l.drop (i + 1)).filterMap f) := by
    rw [← hcons, List.getElem_cons_drop, ← List.filterMap_append, List.take_append_drop]
  rw [List.set_eq_take_append_cons_drop, if_pos hi, List.filterMap_append, hcons, hsplit]
  simp only [List.append_assoc]
  refine List.Perm.append_left _ (List.perm_iff_count.mpr fun b => ?_)
  simp only [List.count_append]
  omega

namespace Span

variable {span : Span} {segment segment' : TraceSegment} {config : SpanConfig} {spanId : UInt64}
  {now : TimePoint} {child : Span}

theorem createChild_eq_some (h : span.createChild segment config spanId now = some (segment', child)) :
    ∃ data, segment.spans[span.data]? = some data ∧ child = ⟨true, segment.spans.length, none⟩ ∧
      segment' = segment.registerSpan { ({} : SpanData).applyConfig segment.defaults config now with
        traceId := data.traceId, parentId := data.spanId, spanId } := by
  obtain ⟨data, hdata, heq⟩ := Option.map_eq_some'.mp h
  cases heq
  exact ⟨data, hdata, rfl, rfl⟩

theorem destroy_live (hlive : span.traceSegment = true) :
    span.destroy segment now =
      { segment with spans := segment.spans.modify (span.finish now) span.data }.spanFinished := by
  simp [destroy, hlive]

end Span

namespace World

/-- The span a handle slot refers to, when the handle is live. -/
def liveSpan (handle : Option Span) : Option Nat :=
  handle.bind fun span => if span.traceSegment then some span.data else none

/-- The spans the live handles refer to, one entry per live handle. -/
def liveSpans (w : World) : List Nat := w.handles.filterMap liveSpan

@[simp] theorem liveSpan_none : liveSpan none = none := rfl

@[simp] theorem liveSpan_some (span : Span) :
    liveSpan (some span) = if span.traceSegment then some span.data else none := rfl

variable {w w' : World} {i : Nat} {span : Span}

theorem mem_liveSpans (h : w.handle i = some span) (hlive : span.traceSegment = true) :
    span.data ∈ w.liveSpans :=
  List.mem_filterMap.mpr ⟨some span, List.getElem?_mem (handle_eq_some.mp h), by simp [hlive]⟩

theorem liveSpans_set (h : w.handle i = some span) (b : Option Span) :
    List.Perm ((w.handles.set i b).filterMap liveSpan ++ (liveSpan (some span)).toList)
      (w.liveSpans ++ (liveSpan b).toList) := by
  obtain ⟨hi, hget⟩ := List.getElem?_eq_some_iff.mp (handle_eq_some.mp h)
  have := filterMap_set_perm liveSpan hi b
  rwa [hget] at this

theorem handle_lt (h : w.handle i = some span) : i < w.handles.length :=
  (List.getElem?_eq_some_iff.mp (handle_eq_some.mp h)).1

theorem liveSpans_createChild (n : Nat) :
    (w.handles ++ [some (⟨true, n, none⟩ : Span)]).filterMap liveSpan = w.liveSpans ++ [n] := by
  simp [liveSpans]

section Handle

variable (h : w.handle i = some span)
include h

theorem liveSpans_move :
    List.Perm ((w.handles.set i (some { span with traceSegment := false }) ++
      [some span]).filterMap liveSpan) w.liveSpans := by
  simpa using liveSpans_set h (some { span with traceSegment := false })

theorem liveSpans_destroyDead (hlive : span.traceSegment = false) :
    List.Perm ((w.handles.set i none).filterMap liveSpan) w.liveSpans := by
  simpa [hlive] using liveSpans_set h none

theorem liveSpans_destroy (hlive : span.traceSegment = true) :
    List.Perm ((w.handles.set i none).filterMap liveSpan ++ [span.data]) w.liveSpans := by
  simpa [hlive] using liveSpans_set h none

theorem liveSpans_call (hlive : span.traceSegment = true) (endTime : Option Int) :
    List.Perm ((w.handles.set i (some { span with endTime })).filterMap liveSpan) w.liveSpans :=
  (List.perm_append_right_iff [span.data]).mp <| by
    simpa [hlive] using liveSpans_set h (some { span with endTime })

end Handle

theorem getElem?_join_set {α : Type} {l : List (Option α)} {i : Nat} (hi : i < l.length)
    (b : Option α) (j : Nat) : (l.set i b)[j]?.join = if i = j then b else l[j]?.join := by
  rw [List.getElem?_set]
  by_cases hij : i = j
  · subst hij; simp [hi]
  · simp [hij]

theorem getElem?_join_append {α : Type} (l : List (Option α)) (b : Option α) (j : Nat) :
    (l ++ [b])[j]?.join = if j < l.length then l[j]?.join else if j = l.length then b else none := by
  split_ifs with hlt heq
  · rw [List.getElem?_append_left hlt]
  · subst heq; simp
  · rw [List.getElem?_eq_none (by simp; omega)]; rfl

/-- Everything a step can do, guards included. -/
theorem step_cases {a : Action} (h : w.step a = some w') :
    (∃ i config spanId now span segment child, a = .createChild i config spanId now ∧
      w.handle i = some span ∧ span.traceSegment = true ∧
      span.createChild w.segment config spanId now = some (segment, child) ∧
      w' = { w with segment, handles := w.handles ++ [some child] }) ∨
    (∃ i span, a = .move i ∧ w.handle i = some span ∧
      w' = { w with handles :=
        w.handles.set i (some { span with traceSegment := false }) ++ [some span] }) ∨
    (∃ i now span, a = .destroy i now ∧ w.handle i = some span ∧ span.traceSegment = false ∧
      w' = { w with handles := w.handles.set i none }) ∨
    (∃ i now span, a = .destroy i now ∧ w.handle i = some span ∧ span.traceSegment = true ∧
      w' = { w with
        segment := (span.destroy w.segment now).1
        handles := w.handles.set i none
        collected := w.collected ++ (span.destroy w.segment now).2.toList }) ∨
    (∃ i op span, a = .call i op ∧ w.handle i = some span ∧ span.traceSegment = true ∧
      w' = { w with
        segment := { w.segment with spans := w.segment.spans.modify op.apply span.data }
        handles := w.handles.set i (some { span with endTime := op.endTime span.endTime }) }) := by
  cases a with
  | createChild i config spanId now =>
    obtain ⟨span, hspan, h⟩ := Option.bind_eq_some.mp h
    split at h
    · obtain ⟨⟨segment, child⟩, hchild, rfl⟩ := Option.map_eq_some'.mp h
      exact .inl ⟨i, config, spanId, now, span, segment, child, rfl, hspan, ‹_›, hchild, rfl⟩
    · cases h
  | move i =>
    obtain ⟨span, hspan, rfl⟩ := Option.map_eq_some'.mp h
    exact .inr <| .inl ⟨i, span, rfl, hspan, rfl⟩
  | destroy i now =>
    obtain ⟨span, hspan, rfl⟩ := Option.map_eq_some'.mp h
    cases hlive : span.traceSegment
    · exact .inr <| .inr <| .inl ⟨i, now, span, rfl, hspan, hlive, by simp [Span.destroy, hlive]⟩
    · exact .inr <| .inr <| .inr <| .inl ⟨i, now, span, rfl, hspan, hlive, rfl⟩
  | call i op =>
    obtain ⟨span, hspan, h⟩ := Option.bind_eq_some.mp h
    split at h
    · cases h
      exact .inr <| .inr <| .inr <| .inr ⟨i, op, span, rfl, hspan, ‹_›, rfl⟩
    · cases h

theorem liveSpans_step {a : Action} (h : w.step a = some w') :
    (w'.liveSpans = w.liveSpans ++ [w.segment.spans.length] ∧
      w'.segment.spans.length = w.segment.spans.length + 1) ∨
    (∃ k ∈ w.liveSpans, List.Perm (w'.liveSpans ++ [k]) w.liveSpans ∧
      w'.segment.spans.length = w.segment.spans.length) ∨
    (List.Perm w'.liveSpans w.liveSpans ∧ w'.segment.spans.length = w.segment.spans.length) := by
  rcases step_cases h with
    ⟨i, config, spanId, now, span, segment, child, -, -, -, hchild, rfl⟩ |
    ⟨i, span, -, hspan, rfl⟩ | ⟨i, now, span, -, hspan, hlive, rfl⟩ |
    ⟨i, now, span, -, hspan, hlive, rfl⟩ | ⟨i, op, span, -, hspan, hlive, rfl⟩
  · obtain ⟨data, -, rfl, rfl⟩ := Span.createChild_eq_some hchild
    exact .inl ⟨liveSpans_createChild _, by simp [TraceSegment.registerSpan]⟩
  · exact .inr <| .inr ⟨liveSpans_move hspan, rfl⟩
  · exact .inr <| .inr ⟨liveSpans_destroyDead hspan hlive, rfl⟩
  · exact .inr <| .inl ⟨span.data, mem_liveSpans hspan hlive, liveSpans_destroy hspan hlive,
      by simp [Span.destroy_live hlive]⟩
  · exact .inr <| .inr ⟨liveSpans_call hspan hlive _, by simp⟩

/-- What the move-only handles keep: no span has two live handles, and each live handle
refers to a span of the segment. -/
structure Owned (w : World) : Prop where
  nodup : w.liveSpans.Nodup
  lt : ∀ k ∈ w.liveSpans, k < w.segment.spans.length

theorem Owned.init (samplers : Samplers) (defaults : SpanDefaults)
    (decision : Option SamplingDecision) (root : SpanData) :
    (World.init samplers defaults decision root).Owned :=
  ⟨by simp [liveSpans, World.init], by simp [liveSpans, World.init]⟩

theorem Owned.step (hw : w.Owned) {a : Action} (h : w.step a = some w') : w'.Owned := by
  obtain ⟨hnodup, hlt⟩ := hw
  rcases liveSpans_step h with ⟨hlive, hlen⟩ | ⟨k, -, hperm, hlen⟩ | ⟨hperm, hlen⟩
  · refine ⟨hlive ▸ List.nodup_append.mpr ⟨hnodup, List.nodup_singleton _, ?_⟩, fun k hk => ?_⟩
    · simp only [List.disjoint_singleton]
      exact fun hmem => absurd (hlt _ hmem) (lt_irrefl _)
    · rw [hlen]
      rcases List.mem_append.mp (hlive ▸ hk) with hk | hk
      · exact Nat.lt_succ_of_lt (hlt k hk)
      · simp [List.mem_singleton.mp hk]
  · exact ⟨(hperm.nodup_iff.mpr hnodup).of_append_left,
      fun j hj => hlen ▸ hlt j (hperm.mem_iff.mp (List.mem_append_left _ hj))⟩
  · exact ⟨hperm.nodup_iff.mpr hnodup, fun j hj => hlen ▸ hlt j (hperm.mem_iff.mp hj)⟩

theorem Owned.not_mem_destroy (hw : w.Owned) (h : w.handle i = some span)
    (hlive : span.traceSegment = true) :
    span.data ∉ (w.handles.set i none).filterMap liveSpan := fun hmem =>
  (List.nodup_append.mp ((liveSpans_destroy h hlive).nodup_iff.mpr hw.nodup)).2.2 hmem
    (List.mem_singleton_self _)

theorem Owned.data_ne (hw : w.Owned) {j : Nat} {span' : Span} (h : w.handle i = some span)
    (hlive : span.traceSegment = true) (h' : w.handle j = some span')
    (hlive' : span'.traceSegment = true) (hij : i ≠ j) : span'.data ≠ span.data := by
  intro heq
  refine hw.not_mem_destroy h hlive (heq ▸ List.mem_filterMap.mpr ⟨some span', ?_, by simp [hlive']⟩)
  exact List.getElem?_mem (by rw [List.getElem?_set_ne hij]; exact handle_eq_some.mp h')

theorem length_liveSpans (w : World) : w.liveSpans.length = w.liveHandles := by
  rw [liveSpans, List.length_filterMap_eq_countP, liveHandles]
  congr 1
  funext handle
  cases handle with
  | none => rfl
  | some span => by_cases h : span.traceSegment <;> simp [h]

theorem length_filter_not_mem {l : List Nat} {n : Nat} (hnodup : l.Nodup)
    (hlt : ∀ k ∈ l, k < n) : ((List.range n).filter (· ∉ l)).length + l.length = n := by
  have hperm : List.Perm ((List.range n).filter (· ∈ l)) l := by
    refine (List.perm_ext_iff_of_nodup ((List.nodup_range n).filter _) hnodup).mpr fun k => ?_
    simp only [List.mem_filter, List.mem_range, decide_eq_true_eq]
    exact ⟨fun h => h.2, fun h => ⟨hlt k h, h⟩⟩
  have := (List.range n).length_eq_length_filter_add (· ∈ l)
  rw [List.length_range, hperm.length_eq] at this
  simp only [decide_not] at this ⊢
  omega

theorem liveSpans_nodup_finished (samplers : Samplers) (defaults : SpanDefaults)
    (decision : Option SamplingDecision) (root : SpanData) (actions : List Action) (w : World)
    (hw : (World.init samplers defaults decision root).run actions = some w) :
    w.liveSpans.Nodup ∧ (∀ k ∈ w.liveSpans, k < w.segment.spans.length) ∧
      w.segment.numFinishedSpans =
        ((List.range w.segment.spans.length).filter (· ∉ w.liveSpans)).length := by
  have hown := run_induction Owned (fun _ _ _ hw h => hw.step h) (Owned.init ..) hw
  have hcount := (Invariant.run samplers defaults decision root hw).count
  have hfilter := length_filter_not_mem hown.nodup hown.lt
  rw [length_liveSpans] at hfilter
  exact ⟨hown.nodup, hown.lt, by omega⟩

theorem liveSpans_nodup_finished_nested :
    ∃ w, (World.init .noRules {} none { traceId := 7, spanId := 7 }).run nestedCalls = some w ∧
      w.liveSpans.Nodup ∧ (∀ k ∈ w.liveSpans, k < w.segment.spans.length) ∧
      w.segment.numFinishedSpans =
        ((List.range w.segment.spans.length).filter (· ∉ w.liveSpans)).length :=
  ⟨_, rfl, liveSpans_nodup_finished .noRules {} none { traceId := 7, spanId := 7 } nestedCalls _
    rfl⟩

end World

end DdTrace.Tracing
