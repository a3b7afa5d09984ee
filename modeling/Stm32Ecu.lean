import Stm32Ecu.Runs
import Stm32Ecu.BoundedFifo
import Stm32Ecu.SlotMap
import Stm32Ecu.Matching
import Stm32Ecu.InterprocMsg
import Stm32Ecu.Driver
import Stm32Ecu.ReadWrite
import Stm32Ecu.Operations
import Stm32Ecu.Retention
import Stm32Ecu.Memory
import Stm32Ecu.Routing
import Stm32Ecu.Correlation
import Stm32Ecu.SendSteps
import Stm32Ecu.ErrorPaths
import Stm32Ecu.Interleaving
import Stm32Ecu.Bookkeeping
import Stm32Ecu.RpmsgManager
import Stm32Ecu.Parameters
import Stm32Ecu.Link
import Stm32Ecu.Lifecycle
import Stm32Ecu.Mailbox
import Stm32Ecu.Server
import Stm32Ecu.SendMsg
import Stm32Ecu.AutonomousState
import Stm32Ecu.CanId
import Stm32Ecu.Mcp2515
import Stm32Ecu.CanSpi
import Stm32Ecu.CanReceive
import Stm32Ecu.CanTransmit
import Stm32Ecu.CanLoopback
import Stm32Ecu.ModuleLoad
import Stm32Ecu.FreeSpace
import Stm32Ecu.Heap4
import Stm32Ecu.FreeRunning
import Stm32Ecu.Doorbell
import Stm32Ecu.LinkedChain
import Stm32Ecu.Virtqueue
import Stm32Ecu.VringOwnership
import Stm32Ecu.VringTransport
import Stm32Ecu.VringNotify
import Stm32Ecu.VringMemory
import Stm32Ecu.WordBitmap
import Stm32Ecu.RpmsgDevice
import Stm32Ecu.RpmsgSend
import Stm32Ecu.RpmsgReceive
