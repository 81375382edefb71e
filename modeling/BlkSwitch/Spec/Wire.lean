import BlkSwitch.Spec.HostRecv
import BlkSwitch.Spec.TargetQueue

/-! The way back of a connection: the send path of an nvmet-tcp queue and the receive path of the
nvme-tcp queue at the other end, with a byte stream in between. The host issues requests, the
target answers them in any order, and the host reads as much of the stream at a time as it likes. -/

namespace BlkSwitch

namespace Host

def RecvEvent.isEnd : RecvEvent → Bool
  | .endRequest _ _ _ _ => true
  | .completeAsyncEvent _ _ | .queueRequest _ | .receiveFailed _ => false

def RecvEvent.endsTag (t : UInt16) : RecvEvent → Bool
  | .endRequest tag _ _ _ => tag == t
  | .completeAsyncEvent _ _ | .queueRequest _ | .receiveFailed _ => false

namespace RecvQueue

variable (q : RecvQueue)

/-- The calls of `nvme_end_request`, and how many of them were for a tag. -/
def ends : List RecvEvent := q.log.filter RecvEvent.isEnd

def ended (t : UInt16) : ℕ := q.log.countP (RecvEvent.endsTag t)

def issue (t : UInt16) (r : NvmeTcpRequest) : RecvQueue :=
  { q.setRq t r with stored := Function.update q.stored t [] }

end RecvQueue

end Host

namespace Target

/-- The command is out of the hands of the send path, and an R2T it may have had is out. -/
def Unheld (q : NvmetTcpQueue) (i : CmdId) : Prop :=
  i ∉ q.respList ∧ i ∉ q.respSendList ∧ q.sndCmd ≠ some i ∧ i ∉ q.caravanCmds ∧
    ∀ k ∈ q.caravanIovs, k.buf = .r2tPdu → k.cmd ≠ i

instance (q : NvmetTcpQueue) (i : CmdId) : Decidable (Unheld q i) := by
  unfold Unheld
  infer_instance

/-- What the host makes of an answer: with `sqhd_disabled` the data of a read ends it. An R2T ends
nothing. -/
def answer (c : Config) (cmd : NvmetTcpCmd) : List Host.RecvEvent :=
  if cmd.needDataOut then
    [if c.sqhdDisabled then .endRequest cmd.req.cqe.commandId 0 0 cmd.sgData
      else .endRequest cmd.req.cqe.commandId cmd.req.cqe.status cmd.req.cqe.result cmd.sgData]
  else if cmd.needDataIn then []
  else [.endRequest cmd.req.cqe.commandId cmd.req.cqe.status cmd.req.cqe.result []]

end Target

open Host Target

structure WireState where
  target : TargetState
  host : RecvQueue
  /-- how much of `sent` the host has read -/
  read : ℕ
  /-- the request that was issued last under each tag -/
  rqs : UInt16 → Option Rq
  issued : List UInt16
  /-- what the target's answers stand for -/
  finished : List RecvEvent

namespace WireState

variable (s : WireState)

def unread : List Byte := s.target.q.sent.drop s.read

def Open (t : UInt16) : Prop := s.finished.countP (RecvEvent.endsTag t) < s.issued.count t

/-- What the host relies on: the answer is to a request that is open, a read finds no more than was
asked for, into the pages of its bios, and an R2T asks for no more than there is. -/
structure Answers (cmd : NvmetTcpCmd) : Prop where
  tag : cmd.req.cqe.commandId = cmd.req.cmd.commandId
  isOpen : s.Open cmd.req.cmd.commandId
  read : ∀ rq ∈ s.rqs cmd.req.cmd.commandId, cmd.needDataOut →
    rq.write = false ∧ rq.specialVec = none ∧ cmd.req.transferLen ≤ rq.dataLen
  write : ∀ rq ∈ s.rqs cmd.req.cmd.commandId, cmd.needDataIn →
    cmd.req.transferLen - cmd.rbytesDone ≤ rq.dataLen

instance (t : UInt16) : Decidable (s.Open t) := by
  unfold Open
  infer_instance

instance (cmd : NvmetTcpCmd) : Decidable (s.Answers cmd) :=
  decidable_of_iff
    (cmd.req.cqe.commandId = cmd.req.cmd.commandId ∧ s.Open cmd.req.cmd.commandId ∧
      (∀ rq ∈ s.rqs cmd.req.cmd.commandId, cmd.needDataOut →
        rq.write = false ∧ rq.specialVec = none ∧ cmd.req.transferLen ≤ rq.dataLen) ∧
      ∀ rq ∈ s.rqs cmd.req.cmd.commandId, cmd.needDataIn →
        cmd.req.transferLen - cmd.rbytesDone ≤ rq.dataLen)
    ⟨fun ⟨h1, h2, h3, h4⟩ => ⟨h1, h2, h3, h4⟩, fun h => ⟨h.tag, h.isOpen, h.read, h.write⟩⟩

end WireState

inductive WireEvent
  /-- the block layer gives a request a free tag; `old` is what the request was used for before -/
  | issue (rq : Rq) (old : NvmeTcpRequest)
  /-- `nvmet_tcp_queue_response` -/
  | respond (i : CmdId) (cmd : NvmetTcpCmd)
  | sendStart (budget : ℕ)
  | sendTurn (nospace : Bool) (replies : List SockReply)
  | read (n : ℕ)

/-- Tags from `NVME_AQ_BLK_MQ_DEPTH` on are no requests' tags on the admin queue. What
`nvme_tcp_recv_skb` fails on stays in the socket, and nothing comes after a NULL pointer. -/
def wireStep (hc : Host.Config) (tc : Target.Config) (s : WireState) : WireEvent → Option WireState
  | .issue rq old =>
    if s.host.ended rq.tag = s.issued.count rq.tag ∧
      (hc.qid = 0 → rq.tag < NVME_AQ_BLK_MQ_DEPTH) then
      some { s with
        host := s.host.issue rq.tag (nvmeTcpSetupCmdPdu hc rq old)
        rqs := Function.update s.rqs rq.tag (some rq)
        issued := s.issued ++ [rq.tag] }
    else none
  | .respond i cmd =>
    some { s with
      target :=
        { s.target with q := nvmetTcpQueueResponse tc i (s.target.q.modifyCmd i fun _ => cmd) }
      finished := s.finished ++ answer tc cmd }
  | .sendStart budget => (sendStart budget s.target).map fun t => { s with target := t }
  | .sendTurn nospace replies => (sendTurn tc nospace replies s.target).map fun t =>
    { s with target := t }
  | .read n =>
    let p := nvmeTcpRecvSkb hc (s.unread.take n) s.host
    if s.unread.length < n ∨ p.1 = ⊥ then none
    else some { s with host := p.2, read := if p.1 = ((n : ℤ) : Ret) then s.read + n else s.read }

def wireSystem (hc : Host.Config) (tc : Target.Config) : Runs.System WireState WireEvent where
  init :=
    { target := ⟨initQueue tc, .idle false⟩
      host := blankRecvQueue hc
      read := 0
      rqs := fun _ => none
      issued := []
      finished := [] }
  step := wireStep hc tc

end BlkSwitch
