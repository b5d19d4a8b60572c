import SerialBroker.Client.ForgedTerms
import SerialBroker.Client.TermHistory
import SerialBroker.Owner.PortSupervisorClosed
import SerialBroker.System.AtMostOnce
import SerialBroker.Protocol.HeldText
import SerialBroker.Protocol.StructureWalk
import SerialBroker.Protocol.LockNames
import SerialBroker.Owner.ReceiveBuffer
import SerialBroker.Worker.ParticipantsFollow
import SerialBroker.Client.SenderOrder
import SerialBroker.Client.StrandedWrites
import SerialBroker.Client.StatusEvents
import SerialBroker.Client.WriteBacklog
import SerialBroker.Client.Serialised
import SerialBroker.Owner.AttemptsCounted
import SerialBroker.Owner.ConnectionsApart
import SerialBroker.Owner.PlugIns
import SerialBroker.Owner.StalledChunks
import SerialBroker.Owner.StopSucceeds
import SerialBroker.Owner.WriteQueue
import SerialBroker.Storage.IndexConverges
import SerialBroker.Storage.NeverForgotten
import SerialBroker.Storage.OwnNameOnly
import SerialBroker.Storage.ProgramsFollow
import SerialBroker.Client.SharedWorkerTransport
import SerialBroker.Client.TabsAdmitted
import SerialBroker.Owner.ReceiveTimers
import SerialBroker.Core.Emitter
import SerialBroker.Client.StatusAnswers
import SerialBroker.Core.HeldLock
import SerialBroker.Emulator.UsbipServer
