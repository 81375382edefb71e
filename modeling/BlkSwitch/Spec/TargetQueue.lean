import BlkSwitch.Lib.Runs
import BlkSwitch.Spec.TargetRecv

/-! The worker of one nvmet-tcp queue (drivers/nvme/target/tcp.c) as a step system: it reads and
sends in turns, the backend completes commands at any time. The send path alone, with any
caller of `nvmet_tcp_queue_response` in front of it, is a system of its own. -/

namespace BlkSwitch.Target

/-- Where `nvmet_tcp_io_work` is: outside `nvmet_tcp_try_send`, the last call having found the
socket full or not, or in its loop with so many turns to go. -/
inductive Pc
  | idle (stalled : Bool)
  | sending (turns : ℕ)
  deriving DecidableEq, Repr

structure TargetState where
  q : NvmetTcpQueue
  pc : Pc

/-- What `nvmet_tcp_io_work` makes of a negative result. -/
def ioWorkFails (ret : ℤ) (q : NvmetTcpQueue) : NvmetTcpQueue :=
  if ret = -EPIPE ∨ ret = -ECONNRESET then { q with fatal := true } else nvmetTcpFatalError q

def sendStart (budget : ℕ) (s : TargetState) : Option TargetState :=
  match s.pc with
  | .idle _ => if 1 ≤ budget then some { s with pc := .sending budget } else none
  | .sending _ => none

/-- One turn of the loop of `nvmet_tcp_try_send` against the given answers of the socket. -/
def sendTurn (c : Config) (nospace : Bool) (replies : List SockReply) (s : TargetState) :
    Option TargetState :=
  match s.pc with
  | .sending (n + 1) =>
    match trySendTurn c (n == 0) nospace { s.q with replies := replies } with
    | (.more, q) => some ⟨q, .sending n⟩
    | (.done ret stalled, q) => some ⟨if ret < 0 then ioWorkFails ret q else q, .idle stalled⟩
  | _ => none

section Init

def zeroCmd : NvmetTcpCmd where
  req :=
    { cmd := NvmeCommand.decodeAt [] 0
      cqe := ⟨0, 0, 0, 0, 0⟩
      sg := none
      dataLen := 0
      transferLen := 0 }
  rspHdr := ⟨0, 0, 0, 0, 0⟩
  rspDgst := []
  dataPdu := []
  r2tPdu := []
  rbytesDone := 0
  wbytesDone := 0
  pduLen := 0
  pduRecv := 0
  recvMsg := ⟨[], 0, 0, 0, [], [], false, false⟩
  initFailed := false
  offset := 0
  curSg := none
  state := .dataPdu
  expDdgst := [0, 0, 0, 0]
  recvDdgst := [0, 0, 0, 0]

def slots (c : Config) : List CmdId := (List.range c.nrCmds).map .slot

def initQueue (c : Config) : NvmetTcpQueue where
  cmds := fun _ => zeroCmd
  freeList := slots c
  respList := []
  respSendList := []
  sendListLen := 0
  sndCmd := none
  caravanIovs := []
  caravanLen := 0
  caravanCmds := []
  nrCaravanMapped := 0
  sendNow := false
  sent := []
  sockNospace := false
  replies := []
  offset := 0
  left := 8
  rcvState := .pdu
  cmd := none
  pdu := List.replicate 128 0
  fatal := false
  sglAllocs := 0
  sglFreed := []
  waiting := []
  executing := [.connect]
  received := []
  executed := []
  queued := []

end Init

/-- The backend completes a command: its completion entry, and what a read found. -/
def backendCompletes (c : Config) (i : CmdId) (cqe : NvmeCompletion) (data : List Byte)
    (q : NvmetTcpQueue) :
    Option NvmetTcpQueue :=
  if i ∈ q.executing ∧ data.length = (q.cmds i).sgData.length then
    some (nvmetReqComplete c i cqe
      ({ q with executing := q.executing.erase i }.modifyCmd i fun cmd => cmd.setSgData data))
  else none

inductive TargetEvent
  | recv (b : List Byte) (env : Env)
  | complete (i : CmdId) (cqe : NvmeCompletion) (data : List Byte)
  | sendStart (budget : ℕ)
  | sendTurn (nospace : Bool) (replies : List SockReply)
  deriving DecidableEq, Repr

def targetStep (c : Config) (s : TargetState) : TargetEvent → Option TargetState
  | .recv b env =>
    match s.pc with
    | .idle _ =>
      let q := nvmetTcpTryRecv c env b s.q
      if b.length ≤ recvWants s.q ∧ q.oops = false then some { s with q := q } else none
    | .sending _ => none
  | .complete i cqe data => (backendCompletes c i cqe data s.q).map fun q => { s with q := q }
  | .sendStart budget => sendStart budget s
  | .sendTurn nospace replies => sendTurn c nospace replies s

def targetSystem (c : Config) : Runs.System TargetState TargetEvent where
  init := ⟨initQueue c, .idle false⟩
  step := targetStep c

section Resp

/-- The command of a `nvmet_tcp_queue_response` call: what it sends, if it sends data, is there. -/
def Prepared (cmd : NvmetTcpCmd) : Prop :=
  cmd.needDataOut → cmd.sgData.length = cmd.req.transferLen ∧ cmd.curSg = some 0

instance (cmd : NvmetTcpCmd) : Decidable (Prepared cmd) := by unfold Prepared; infer_instance

def Unsent (q : NvmetTcpQueue) (i : CmdId) : Prop :=
  i ∉ q.respList ∧ i ∉ q.respSendList ∧ q.sndCmd ≠ some i ∧ ∀ k ∈ q.caravanIovs, k.cmd ≠ i

instance (q : NvmetTcpQueue) (i : CmdId) :
    Decidable (Unsent q i) := by unfold Unsent; infer_instance

/-- A caller hands over a command of its own making, or the worker sends. -/
inductive RespEvent
  | queueResponse (i : CmdId) (cmd : NvmetTcpCmd)
  | sendStart (budget : ℕ)
  | sendTurn (nospace : Bool)

def respStep (c : Config) (s : TargetState) : RespEvent → Option TargetState
  | .queueResponse i cmd =>
    if Unsent s.q i ∧ Prepared cmd then
      some { s with q := nvmetTcpQueueResponse c i (s.q.modifyCmd i fun _ => cmd) }
    else none
  | .sendStart budget => sendStart budget s
  | .sendTurn nospace => sendTurn c nospace [] s

def respSystem (c : Config) : Runs.System TargetState RespEvent where
  init := ⟨initQueue c, .idle false⟩
  step := respStep c

end Resp

end BlkSwitch.Target
