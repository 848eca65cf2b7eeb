import Sideband.Sockets.RoundTrip
import Sideband.SharedMemory.TwoSlots
import Sideband.Rdma.Fifo
import Sideband.Rdma.Sending
import Sideband.Rdma.Receives
import Sideband.Messages.Bounds
import Sideband.Messages.Invention
import Sideband.Messages.ReadCounts
import Sideband.Messages.Reports
import Sideband.Connect.Pairing
import Sideband.Connect.RdmaPairing
import Sideband.Registry.Streams
import Sideband.Registry.WakeUps
import Sideband.Sockets.Closing
import Sideband.Sockets.Handshake
import Sideband.Sockets.Tearing
import Sideband.Connect.Candidates
import Sideband.Connect.Semaphore
import Sideband.Connect.SocketUrl
import Sideband.Moniker.Safety
import Sideband.Moniker.Acceptance
import Sideband.SharedMemory.Mapping
import Sideband.SharedMemory.Prefixed
import Sideband.SharedMemory.Segments
import Sideband.SharedMemory.Switching
import Sideband.SharedMemory.Windows
import Sideband.Moniker.Exchanges
import Sideband.Moniker.Rounds
import Sideband.Rdma.Window
import Sideband.Connect.SocketProgress
import Sideband.Sockets.Descriptors
import Sideband.Sockets.Stream
import Sideband.Moniker.Concurrent
import Sideband.Moniker.Handlers
import Sideband.Moniker.Pipelines
