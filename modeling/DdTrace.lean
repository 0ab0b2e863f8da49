import DdTrace.Msgpack.IntegerType
import DdTrace.Msgpack.Buffer
import DdTrace.Msgpack.Pack
import DdTrace.Msgpack.Decode
import DdTrace.Msgpack.RoundTrip
import DdTrace.Msgpack.Narrowest
import DdTrace.HttpClient.Url
import DdTrace.Tracing.Tags
import DdTrace.Tracing.Span
import DdTrace.Tracing.TraceSegment
import DdTrace.Tracing.Ownership
import DdTrace.Tracing.Refinement
