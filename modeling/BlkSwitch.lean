import BlkSwitch.Spec.TargetSend
import BlkSwitch.Lib.Runs
import BlkSwitch.Lib.Bytes
import BlkSwitch.Spec.Pdu
import BlkSwitch.Spec.HostRequest
import BlkSwitch.Spec.HostSend
import BlkSwitch.Sanity.HostIter
import BlkSwitch.Spec.HostQueue
import BlkSwitch.Sanity.HostCaravan
import BlkSwitch.Sanity.HostQueue
import BlkSwitch.Proofs.HostDoorbell
import BlkSwitch.Lib.Pipe
import BlkSwitch.Sanity.HostExact
import BlkSwitch.Sanity.HostStream
import BlkSwitch.Proofs.HostStream
import BlkSwitch.Proofs.HostSendError
import BlkSwitch.Proofs.I10Doorbell
import BlkSwitch.Spec.TargetCmd
import BlkSwitch.Spec.TargetRecv
import BlkSwitch.Spec.TargetQueue
import BlkSwitch.Sanity.TargetSend
import BlkSwitch.Sanity.TargetTurn
import BlkSwitch.Sanity.TargetStream
import BlkSwitch.Sanity.TargetPipe
import BlkSwitch.Proofs.TargetFifo
import BlkSwitch.Lib.Custody
import BlkSwitch.Sanity.TargetCustody
import BlkSwitch.Sanity.TargetRecv
import BlkSwitch.Sanity.TargetKept
import BlkSwitch.Sanity.TargetReads
import BlkSwitch.Proofs.TargetSlots
import BlkSwitch.Proofs.TargetCaravan
import BlkSwitch.Proofs.TargetSendError
import BlkSwitch.Proofs.HostMaps
import BlkSwitch.Lib.Loops
import BlkSwitch.Proofs.Steering
import BlkSwitch.Spec.BlkMq
import BlkSwitch.Proofs.BlkBytes
import BlkSwitch.Proofs.TargetLanes
import BlkSwitch.Proofs.HostWorkers
import BlkSwitch.Spec.HostTeardown
import BlkSwitch.Proofs.HostTeardown
import BlkSwitch.Spec.HostRecv
import BlkSwitch.Proofs.AppSteering
import BlkSwitch.Proofs.Metrics
import BlkSwitch.Spec.TargetHeader
import BlkSwitch.Proofs.TargetHeader
import BlkSwitch.Proofs.HostCounter
import BlkSwitch.Proofs.TargetHostile
import BlkSwitch.Sanity.TargetIovec
import BlkSwitch.Proofs.TargetWrites
import BlkSwitch.Proofs.HostRecv
import BlkSwitch.Proofs.HostR2t
import BlkSwitch.Proofs.BlkNodes
import BlkSwitch.Sanity.HostFeeds
import BlkSwitch.Lib.Packing
import BlkSwitch.Proofs.CaravanBounds
import BlkSwitch.Proofs.BlkTags
import BlkSwitch.Lib.Batches
import BlkSwitch.Proofs.BlkPlug
import BlkSwitch.Proofs.TargetSteering
import BlkSwitch.Lib.Arena
import BlkSwitch.Spec.QueueSetup
import BlkSwitch.Proofs.QueueSetup
import BlkSwitch.Proofs.BlkSwqueue
import BlkSwitch.Sanity.WirePdus
import BlkSwitch.Sanity.TargetDrain
import BlkSwitch.Proofs.Wire
import BlkSwitch.Lib.Places
import BlkSwitch.Spec.BlkDispatch
import BlkSwitch.Proofs.BlkCustody
import BlkSwitch.Sanity.BlkHomes
import BlkSwitch.Proofs.BlkAttended
import BlkSwitch.Proofs.BlkRests
import BlkSwitch.Proofs.BlkPending
import BlkSwitch.Sanity.TargetFrames
import BlkSwitch.Sanity.TargetDebts
import BlkSwitch.Sanity.TargetSync
import BlkSwitch.Sanity.HostSilent
import BlkSwitch.Spec.Forward
import BlkSwitch.Sanity.HostMsgs
import BlkSwitch.Proofs.Forward
