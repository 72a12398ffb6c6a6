import Uavcan.DynamicNodeId.Allocation
import Uavcan.DynamicNodeId.AllocationExchange
import Uavcan.DynamicNodeId.CentralizedServer
import Uavcan.DynamicNodeId.CoreInvariants
import Uavcan.Transport.Assembly
import Uavcan.Transport.Redundancy
import Uavcan.Transport.ExactlyOnce
import Uavcan.Transport.TransmissionOrder
import Uavcan.Transport.FilterTransparency
import Uavcan.Transport.TxQueueAccounting
import Uavcan.Marshal.Recovery
import Uavcan.DynamicNodeId.LogRecovery
import Uavcan.Posix.FirmwareVersionChecker
import Uavcan.Posix.FirmwareCache
import Uavcan.Protocol.GlobalTimeSyncMaster
import Uavcan.DynamicNodeId.NodeDiscovery
import Uavcan.DynamicNodeId.RequestStages
import Uavcan.DynamicNodeId.NodeIDSelection
import Uavcan.DynamicNodeId.StorageMarshalling
import Uavcan.Transport.FlatBuffer
import Uavcan.Transport.ListenerResources
import Uavcan.Node.GlobalDataTypeRegistry
import Uavcan.Node.Timers
import Uavcan.Marshal.StringArray
import Uavcan.Marshal.SquareMatrix
import Uavcan.Memory.Map
import Uavcan.Protocol.FirmwareUpdateTrigger
import Uavcan.Linux.SocketCanDrain
import Uavcan.Posix.BasicFileServerBackend
import Uavcan.Linux.SystemClock
import Uavcan.Stm32.CanTimings
import Uavcan.Stm32.RxQueue
import Uavcan.Transport.CRCDetection
import Uavcan.DataTypeSignature
import Uavcan.Protocol.PanicListener
import Uavcan.Marshal.BitArrayCopy
import Uavcan.Memory.PoolBlocks
import Uavcan.Memory.Multiset
import Uavcan.Memory.HeapBasedPoolAllocator
