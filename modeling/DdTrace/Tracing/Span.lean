import DdTrace.Tracing.Tags

/-! Span data and the user-facing calls of a `Span` handle (span.cpp). The tags are an
association list from name to value: `std::unordered_map::insert_or_assign` is
`AList.insert`, `erase` is `AList.erase` and `find` is `AList.lookup`. The tag calls skip
internal names; `set_error` writes `"error.msg"` without asking. -/

namespace DdTrace.Tracing

/-- Modelled from the spec: a clock reading, wall time and monotonic tick (clock.h is not in
the sources). -/
structure TimePoint where
  wall : Int
  tick : Int
  deriving DecidableEq, Repr

/-- Modelled from the spec: a duration counts monotonic ticks. -/
def TimePoint.sub (finish start : TimePoint) : Int := finish.tick - start.tick

abbrev Tags := AList fun _ : List Char => List Char

abbrev NumericTags := AList fun _ : List Char => Float

/-- Modelled from the spec's data model: the fields of `SpanData` that the modelled code
reads or writes (span_data.h is not in the sources), `numeric_tags` being written by the
segment's sampling at completion. A new `SpanData` is all zero and empty. -/
structure SpanData where
  traceId : UInt64 := 0
  spanId : UInt64 := 0
  parentId : UInt64 := 0
  service : List Char := []
  serviceType : List Char := []
  name : List Char := []
  resource : List Char := []
  start : TimePoint := ⟨0, 0⟩
  duration : Int := 0
  error : Bool := false
  tags : Tags := ∅
  numericTags : NumericTags := ∅

/-- Modelled from the spec: the segment-wide defaults of a new span. -/
structure SpanDefaults where
  service : List Char := []
  serviceType : List Char := []
  name : List Char := []
  tags : Tags := ∅

/-- Modelled from the spec: `SpanConfig`, whose fields win over the defaults when set. -/
structure SpanConfig where
  name : Option (List Char) := none
  service : Option (List Char) := none
  resource : Option (List Char) := none
  serviceType : Option (List Char) := none
  tags : Tags := ∅
  start : Option TimePoint := none

namespace SpanData

/-- Modelled from the spec: `SpanData::apply_config` merges the defaults and the config,
the config winning, and reads the clock when the config gives no start (span_data.cpp is
not in the sources). -/
def applyConfig (data : SpanData) (defaults : SpanDefaults) (config : SpanConfig)
    (now : TimePoint) : SpanData :=
  { data with
    service := config.service.getD defaults.service
    serviceType := config.serviceType.getD defaults.serviceType
    name := config.name.getD defaults.name
    resource := config.resource.getD data.resource
    tags := config.tags ∪ defaults.tags
    start := config.start.getD now }

def lookupTag (data : SpanData) (name : List Char) : Option (List Char) :=
  if isInternalTag name then none else data.tags.lookup name

def setTag (data : SpanData) (name value : List Char) : SpanData :=
  if !isInternalTag name then { data with tags := data.tags.insert name value } else data

def removeTag (data : SpanData) (name : List Char) : SpanData :=
  if !isInternalTag name then { data with tags := data.tags.erase name } else data

def setServiceName (data : SpanData) (service : List Char) : SpanData :=
  { data with service := service }

def setServiceType (data : SpanData) (type : List Char) : SpanData :=
  { data with serviceType := type }

def setResourceName (data : SpanData) (resource : List Char) : SpanData :=
  { data with resource := resource }

def setErrorMessage (data : SpanData) (message : List Char) : SpanData :=
  { data with error := true, tags := data.tags.insert "error.msg".toList message }

def setError (data : SpanData) (isError : Bool) : SpanData :=
  let data := { data with error := isError }
  if !isError then { data with tags := data.tags.erase "error.msg".toList } else data

def setOperationName (data : SpanData) (value : List Char) : SpanData :=
  { data with name := value }

def ids (data : SpanData) : UInt64 × UInt64 × UInt64 := (data.traceId, data.spanId, data.parentId)

end SpanData

/-- A `Span` handle: whether it still holds its segment (`trace_segment_`, null once moved
from), the index of its `SpanData` among the segment's spans (`data_`), and `end_time_`. -/
structure Span where
  traceSegment : Bool
  data : Nat
  endTime : Option Int
  deriving DecidableEq, Repr

inductive SpanOp
  | setTag (name value : List Char)
  | removeTag (name : List Char)
  | setErrorMessage (message : List Char)
  | setError (isError : Bool)
  | setServiceName (service : List Char)
  | setServiceType (type : List Char)
  | setResourceName (resource : List Char)
  | setOperationName (value : List Char)
  | setEndTime (endTime : Int)
  | lookupTag (name : List Char)

namespace SpanOp

/-- What a call does to the span's data: `set_end_time` writes the handle instead, and
`lookup_tag` writes nothing. -/
def apply : SpanOp → SpanData → SpanData
  | .setTag name value, data => data.setTag name value
  | .removeTag name, data => data.removeTag name
  | .setErrorMessage message, data => data.setErrorMessage message
  | .setError isError, data => data.setError isError
  | .setServiceName service, data => data.setServiceName service
  | .setServiceType type, data => data.setServiceType type
  | .setResourceName resource, data => data.setResourceName resource
  | .setOperationName value, data => data.setOperationName value
  | .setEndTime _, data => data
  | .lookupTag _, data => data

def endTime : SpanOp → Option Int → Option Int
  | .setEndTime endTime, _ => some endTime
  | _, endTime => endTime

def applyAll (ops : List SpanOp) (data : SpanData) : SpanData :=
  ops.foldl (fun data op => op.apply data) data

theorem apply_ids (op : SpanOp) (data : SpanData) : (op.apply data).ids = data.ids := by
  cases op <;> simp only [apply, SpanData.setTag, SpanData.removeTag, SpanData.setError,
    SpanData.setErrorMessage] <;> (try split) <;> rfl

/-- What a call writes to the tag `name`, as the user sees it: `some (some v)` writes `v`,
`some none` removes the tag, and `none` leaves it. -/
def tagWrite (name : List Char) : SpanOp → Option (Option (List Char))
  | .setTag n value => if n = name then some (some value) else none
  | .removeTag n => if n = name then some none else none
  | .setErrorMessage message => if name = "error.msg".toList then some (some message) else none
  | .setError false => if name = "error.msg".toList then some none else none
  | _ => none

/-- The value of the tag `name` after the calls, starting from `initial`, when each write
replaces it and each removal drops it. -/
def lastWrite (name : List Char) (ops : List SpanOp) (initial : Option (List Char)) :
    Option (List Char) :=
  ops.foldl (fun value op => (op.tagWrite name).getD value) initial

theorem isInternalTag_errorMsg : isInternalTag "error.msg".toList = false := by decide

theorem lookup_apply (op : SpanOp) (data : SpanData) (name : List Char) :
    (op.apply data).tags.lookup name =
      if isInternalTag name then data.tags.lookup name
      else (op.tagWrite name).getD (data.tags.lookup name) := by
  have herror := isInternalTag_errorMsg
  cases op with
  | setTag n value =>
    by_cases hn : n = name
    · subst hn; by_cases hi : isInternalTag n <;> simp [apply, SpanData.setTag, tagWrite, hi]
    · simp only [apply, SpanData.setTag, tagWrite, hn, ↓reduceIte, Option.getD_none, ite_self]
      split <;> simp [AList.lookup_insert_ne (Ne.symm hn)]
  | removeTag n =>
    by_cases hn : n = name
    · subst hn; by_cases hi : isInternalTag n <;> simp [apply, SpanData.removeTag, tagWrite, hi]
    · simp only [apply, SpanData.removeTag, tagWrite, hn, ↓reduceIte, Option.getD_none, ite_self]
      split <;> simp [AList.lookup_erase_ne (Ne.symm hn)]
  | setErrorMessage message =>
    unfold apply SpanData.setErrorMessage tagWrite
    generalize "error.msg".toList = key at herror ⊢
    by_cases hn : name = key
    · subst hn; simp [herror]
    · simp [hn, AList.lookup_insert_ne hn]
  | setError isError =>
    cases isError <;> unfold apply SpanData.setError tagWrite <;>
      generalize "error.msg".toList = key at herror ⊢ <;> by_cases hn : name = key
    · subst hn; simp [herror]
    · simp [hn, AList.lookup_erase_ne hn]
    · simp
    · simp
  | _ => split <;> rfl

theorem lookup_applyAll (ops : List SpanOp) (data : SpanData) (name : List Char) :
    (applyAll ops data).tags.lookup name =
      if isInternalTag name then data.tags.lookup name
      else lastWrite name ops (data.tags.lookup name) := by
  induction ops generalizing data with
  | nil => simp [applyAll, lastWrite]
  | cons op ops ih =>
    have h := ih (op.apply data)
    rw [lookup_apply] at h
    simp only [applyAll, lastWrite, List.foldl_cons] at h ⊢
    split <;> simp_all

theorem applyAll_lookupTag (ops : List SpanOp) (data : SpanData) :
    (∀ name, isInternalTag name = true →
      (applyAll ops data).tags.lookup name = data.tags.lookup name) ∧
    ∀ name, (applyAll ops data).lookupTag name =
      if isInternalTag name then none else lastWrite name ops (data.tags.lookup name) :=
  ⟨fun name h => by rw [lookup_applyAll, if_pos h],
   fun name => by rw [SpanData.lookupTag, lookup_applyAll]; split <;> rfl⟩

theorem setTag_reserved_nul_entry :
    "_dd.".toList <+: "_dd.\x00".toList ∧
      (applyAll [.setTag "_dd.\x00".toList "x".toList] {}).tags.lookup "_dd.\x00".toList =
        some "x".toList ∧
      (applyAll [.setTag "_dd.\x00".toList "x".toList] {}).lookupTag "_dd.\x00".toList =
        some "x".toList :=
  ⟨⟨['\x00'], rfl⟩, rfl, rfl⟩

end SpanOp

end DdTrace.Tracing
