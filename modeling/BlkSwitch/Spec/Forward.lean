import BlkSwitch.Spec.HostQueue
import BlkSwitch.Spec.TargetQueue

/-! The way out of a connection: the send path of an nvme-tcp queue and the receive path of the
nvmet-tcp queue at the other end, with a byte stream in between. The target asks for the data of
long writes with R2Ts, which the host may handle at any time and in any order. -/

namespace BlkSwitch

open Host Target

namespace Host

def commandOf (c : Config) (rq : Rq) : NvmeCommand := nvmeTcpMapData c rq rq.dataLen rq.cmd

/-- What the backend is to execute for a request, and with which data. The pages of a read come
zeroed from `sgl_alloc`. -/
def execution (c : Config) (rq : Rq) : NvmeCommand × List Byte :=
  (commandOf c rq,
    if rq.dataLen = 0 then []
    else if rq.write then rq.data
    else List.replicate rq.dataLen 0)

end Host

structure ForwardState where
  host : HostState
  target : TargetState
  /-- how much of `sent` the target has read -/
  read : ℕ
  /-- the R2Ts that the target's send path is through with and the host has not handled -/
  r2ts : List NvmeTcpR2tPdu
  issued : List Rq
  /-- the commands that `nvmet_req_init` refused -/
  refused : List NvmeCommand

namespace ForwardState

variable (s : ForwardState)

def unread : List Byte := s.host.q.sent.drop s.read

/-- How often the target has finished a command of this tag with the data. -/
def finished (t : UInt16) : ℕ :=
  s.target.q.executed.countP (fun job => job.1.commandId == t) + s.refused.countP
    (fun cmd => cmd.commandId == t)

end ForwardState

/-- The commands that a read brought, if they were refused. -/
def refusals (env : Env) (q q' : NvmetTcpQueue) : List NvmeCommand :=
  match env.init with
  | .accept _ => []
  | .reject _ => q'.received.drop q.received.length

/-- The R2Ts that a turn of the send path is through with. -/
def newR2ts (c : Target.Config) (q q' : NvmetTcpQueue) : List NvmeTcpR2tPdu :=
  (q'.waiting.drop q.waiting.length).map fun i => r2tPdu c i (q'.cmds i)

inductive ForwardEvent
  | host (e : HostEvent)
  | target (e : TargetEvent)

/-- The block layer gives a request a tag none of whose requests is still under way. -/
def forwardStep (hc : Host.Config) (tc : Target.Config) (s : ForwardState) : ForwardEvent →
    Option ForwardState
  | .host (.queueRq t rq) =>
    if t = rq.tag.toNat ∧ s.issued.countP (fun rq' => rq'.tag == rq.tag) = s.finished rq.tag then
      (hostStep hc s.host (.queueRq t rq)).map fun h =>
        { s with host := h, issued := s.issued ++ [rq] }
    else none
  | .host (.handleR2t t pdu) =>
    if t = pdu.commandId.toNat ∧ pdu ∈ s.r2ts then
      (hostStep hc s.host (.handleR2t t pdu)).map fun h =>
        { s with host := h, r2ts := s.r2ts.erase pdu }
    else none
  | .host e => (hostStep hc s.host e).map fun h => { s with host := h }
  | .target (.recv b env) =>
    if b <+: s.unread then
      (targetStep tc s.target (.recv b env)).map fun t =>
        { s with
          target := t
          read := s.read + b.length
          refused := s.refused ++ refusals env s.target.q t.q }
    else none
  | .target (.sendTurn nospace replies) =>
    (targetStep tc s.target (.sendTurn nospace replies)).map fun t =>
      { s with target := t, r2ts := s.r2ts ++ newR2ts tc s.target.q t.q }
  | .target e => (targetStep tc s.target e).map fun t => { s with target := t }

def forwardSystem (hc : Host.Config) (tc : Target.Config) :
    Runs.System ForwardState ForwardEvent where
  init := ⟨(hostSystem hc).init, (targetSystem tc).init, 0, [], [], []⟩
  step := forwardStep hc tc

end BlkSwitch
