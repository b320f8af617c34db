import DuplexRpc.Proofs.Connection.Stream
import DuplexRpc.Proofs.Connection.Teardown
import DuplexRpc.Proofs.Correlator.Queue

namespace DuplexRpc.Connection
variable {c after later : Connection} {action : Action} {actions more : List Action} {m : Message} {rest : List Message}

end DuplexRpc.Connection
