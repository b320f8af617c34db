import DuplexRpc.Codec.Record

namespace DuplexRpc

-- How a connection is set up. Limits and capacities are words of 64 bits, the budget of
-- framing errors in a row one of 32.
structure Config where
  name : String := "jsonrpc"
  maxContentLength : UInt64 := 64 * 1024 * 1024
  maxHeaderBytes : UInt64 := 8 * 1024
  maxConsecutiveFramingErrors : UInt32 := 8
  outboundQueueCapacity : UInt64 := 256
  notificationQueueCapacity : UInt64 := 1024
  contentType : Option String := none
  validateMessages : Bool := false
  traceMessages : Bool := false
  deriving DecidableEq, Repr

namespace Config

-- Settings given one by one are raised to the least value that works.
inductive Setting where
  | name (value : String)
  | maxContentLength (value : UInt64)
  | maxHeaderBytes (value : UInt64)
  | maxConsecutiveFramingErrors (value : UInt32)
  | outboundQueueCapacity (value : UInt64)
  | notificationQueueCapacity (value : UInt64)
  | contentType (value : String)
  | validation (value : Bool)
  | messageTracing (value : Bool)

def set (c : Config) : Setting → Config
  | .name value => { c with name := value }
  | .maxContentLength value => { c with maxContentLength := value }
  | .maxHeaderBytes value => { c with maxHeaderBytes := max value 4 }
  | .maxConsecutiveFramingErrors value => { c with maxConsecutiveFramingErrors := value }
  | .outboundQueueCapacity value => { c with outboundQueueCapacity := max value 1 }
  | .notificationQueueCapacity value => { c with notificationQueueCapacity := max value 1 }
  | .contentType value => { c with contentType := some value }
  | .validation value => { c with validateMessages := value }
  | .messageTracing value => { c with traceMessages := value }

def field (name : String) (codec : Codec α) (put : Config → α → Config) : Record.Field Config where
  name := name
  put c v := (codec.read v).map (put c)
  required := false
  isSet _ := true

-- Reading raises nothing; every field has its default.
def record : Record Config where
  name := "ConnectionConfig"
  empty := {}
  fields := [
    field "name" .string fun c v => { c with name := v },
    field "max_content_length" .uint64 fun c v => { c with maxContentLength := v },
    field "max_header_bytes" .uint64 fun c v => { c with maxHeaderBytes := v },
    field "max_consecutive_framing_errors" .uint32 fun c v => { c with maxConsecutiveFramingErrors := v },
    field "outbound_queue_capacity" .uint64 fun c v => { c with outboundQueueCapacity := v },
    field "notification_queue_capacity" .uint64 fun c v => { c with notificationQueueCapacity := v },
    field "content_type" (.option .string) fun c v => { c with contentType := v },
    field "validate_messages" .bool fun c v => { c with validateMessages := v },
    field "trace_messages" .bool fun c v => { c with traceMessages := v }]

def ofJson (v : Json) : Except Misfit Config :=
  record.read v

def toJson (c : Config) : Json :=
  .object [
    ("name", .string c.name),
    ("max_content_length", Codec.uint64.write c.maxContentLength),
    ("max_header_bytes", Codec.uint64.write c.maxHeaderBytes),
    ("max_consecutive_framing_errors", Codec.uint32.write c.maxConsecutiveFramingErrors),
    ("outbound_queue_capacity", Codec.uint64.write c.outboundQueueCapacity),
    ("notification_queue_capacity", Codec.uint64.write c.notificationQueueCapacity),
    ("content_type", (Codec.option .string).write c.contentType),
    ("validate_messages", .bool c.validateMessages),
    ("trace_messages", .bool c.traceMessages)]

end Config
end DuplexRpc
