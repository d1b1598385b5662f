import ParallelLabs.Decryptor.Search
import ParallelLabs.Decryptor.Coverage
import ParallelLabs.Decryptor.Independence
import ParallelLabs.Callables.StoredResult
import ParallelLabs.Callables.WorkerKinds
import ParallelLabs.SharedMemory.StopFlag
import ParallelLabs.SharedMemory.Runners
import ParallelLabs.Runners.ThreadRunner
import ParallelLabs.Runners.ProcessRunner
import ParallelLabs.Socket.Interrupter
import ParallelLabs.Socket.SessionLife
import ParallelLabs.Socket.ServerLife
import ParallelLabs.Mpi.PointToPoint
import ParallelLabs.Decryptor.Partition
import ParallelLabs.Encryptor.Bounds
import ParallelLabs.Mpi.Broadcast
import ParallelLabs.Mpi.Distribution
import ParallelLabs.Runners.Registration
import ParallelLabs.Socket.ShortReads
import ParallelLabs.Twofish.Definedness
import ParallelLabs.Decryptor.OpenMpSearch
import ParallelLabs.SharedMemory.Search
import ParallelLabs.Decryptor.SignalSearch
import ParallelLabs.Socket.Search
import ParallelLabs.Mpi.Search
import ParallelLabs.Callables.Gather
import ParallelLabs.Decryptor.CancelSearch
import ParallelLabs.Mpi.BroadcastSearch
import ParallelLabs.Encryptor.Ciphertexts
import ParallelLabs.Socket.WholeRequests
