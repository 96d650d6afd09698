import DomProtocol.PmmrReference
import DomProtocol.Invariants
import DomProtocol.Replay
import DomProtocol.IbdSession
import DomProtocol.Asert
import DomProtocol.BlockTemplate
import DomProtocol.Address
import DomProtocol.F6Engine.Durable
import DomProtocol.ConditionLock.Native
import DomProtocol.ConditionLock.Token
import DomProtocol.Settlement.Recovery
import DomProtocol.Settlement.Finality
import DomProtocol.Route.Recovery
import DomProtocol.DomWallet.Rescan
import DomProtocol.DomWallet.JournalFile
import DomProtocol.Settlement.Wire
import DomProtocol.Settlement.OrderIndependence
