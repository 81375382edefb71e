import BlkSwitch.Spec.TargetCmd

/-! One queue of the nvmet-tcp target and its send path (drivers/nvme/target/tcp.c): responses
are queued by the backend, fetched in batches, and gathered in the caravan until
`nvmet_tcp_try_send` gives it to the socket. -/

namespace BlkSwitch.Target

/-- What a caravan entry points into: a header buffer of a command, or the pages of its `req.sg`,
the list `sg`. -/
inductive Buffer
  | dataPdu
  | r2tPdu
  | rspPdu
  | page (sg : ℕ)
  deriving DecidableEq, Repr

/-- A caravan entry. The bytes are read when the caravan is sent. -/
structure Kvec where
  cmd : CmdId
  buf : Buffer
  off : ℕ
  len : ℕ
  deriving DecidableEq, Repr

inductive RecvState
  | pdu
  | data
  | ddgst
  | err
  deriving DecidableEq, Repr

structure NvmetTcpQueue where
  cmds : CmdId → NvmetTcpCmd
  freeList : List CmdId
  /-- newest first -/
  respList : List CmdId
  respSendList : List CmdId
  sendListLen : ℤ
  sndCmd : Option CmdId
  caravanIovs : List Kvec
  caravanLen : ℕ
  caravanCmds : List CmdId
  nrCaravanMapped : ℕ
  sendNow : Bool
  /-- the bytes the socket has accepted -/
  sent : List Byte
  sockNospace : Bool
  /-- the socket's answers to come; a socket with none left takes everything -/
  replies : List SockReply
  offset : ℕ
  left : ℕ
  rcvState : RecvState
  cmd : Option CmdId
  /-- `union nvme_tcp_pdu` -/
  pdu : List Byte
  /-- `nvmet_tcp_fatal_error` has been called -/
  fatal : Bool
  /-- how many lists `sgl_alloc` has given out, and the lists `sgl_free` was called with -/
  sglAllocs : ℕ
  sglFreed : List ℕ
  /-- commands whose R2T has been handed over, and commands the backend has -/
  waiting : List CmdId
  executing : List CmdId
  /-- the commands copied out of the stream, and what the backend was given with them -/
  received : List NvmeCommand
  executed : List (NvmeCommand × List Byte)
  /-- what each call of `nvmet_tcp_queue_response` asked to be sent -/
  queued : List (List Byte)

/-- A page is read as it was filled, also behind `sgl_free`: what others put there is not
modelled. -/
def Buffer.of (cmd : NvmetTcpCmd) : Buffer → List Byte
  | .dataPdu => cmd.dataPdu
  | .r2tPdu => cmd.r2tPdu
  | .rspPdu => cmd.rspPdu
  | .page _ => cmd.sgData

def Kvec.bytes (cmds : CmdId → NvmetTcpCmd) (k : Kvec) : List Byte :=
  ((k.buf.of (cmds k.cmd)).drop k.off).take k.len

namespace NvmetTcpQueue

variable (q : NvmetTcpQueue)

def caravanBytes : List Byte := q.caravanIovs.flatMap (Kvec.bytes q.cmds)

def modifyCmd (i : CmdId) (f : NvmetTcpCmd → NvmetTcpCmd) : NvmetTcpQueue :=
  { q with cmds := Function.update q.cmds i (f (q.cmds i)) }

/-- `kernel_sendpage` and `kernel_sendmsg`: the socket takes a prefix, or fails. -/
def kernelSend (b : List Byte) : ℤ × NvmetTcpQueue :=
  match q.replies with
  | [] => (b.length, { q with sent := q.sent ++ b })
  | .all :: rs => (b.length, { q with sent := q.sent ++ b, replies := rs })
  | .ret r :: rs =>
    if r ≤ 0 then (r, { q with replies := rs })
    else
      let n := min r.toNat b.length
      (n, { q with sent := q.sent ++ b.take n, replies := rs })

def nvmetTcpPutCmd (i : CmdId) : NvmetTcpQueue :=
  if i = .connect then q else { q with freeList := q.freeList ++ [i] }

/-- `sgl_free` of a command's list; of NULL it is nothing. -/
def sglFree (i : CmdId) : NvmetTcpQueue :=
  match (q.cmds i).req.sg with
  | some sg => { q with sglFreed := q.sglFreed ++ [sg.id] }
  | none => q

def i10TargetIsCaravanFull : Bool :=
  decide (q.caravanLen ≥ I10_CARAVAN_CAPACITY) || decide
    (q.caravanIovs.length ≥ I10_TARGET_SEND_BUDGET * 3) ||
    decide (q.caravanCmds.length ≥ I10_TARGET_SEND_BUDGET) || decide
      (q.nrCaravanMapped ≥ I10_TARGET_SEND_BUDGET)

def append (k : Kvec) : NvmetTcpQueue :=
  { q with
    caravanIovs := q.caravanIovs ++ [k]
    caravanLen := q.caravanLen + k.len
    nrCaravanMapped :=
      match k.buf with
      | .page _ => q.nrCaravanMapped + 1
      | _ => q.nrCaravanMapped }

def mark : NvmetTcpQueue := { q with sendNow := true }

/-- The append sites: into the caravan (`none` when it is full), or straight to the socket
from `direct`. -/
def emit (c : Config) (k : Kvec) (direct : List Byte) : Option ℤ × NvmetTcpQueue :=
  if aggregates c then
    if q.i10TargetIsCaravanFull then (none, q.mark) else (some k.len, q.append k)
  else
    let p := q.kernelSend direct
    (some p.1, p.2)

end NvmetTcpQueue

open NvmetTcpQueue

/-- `llist_del_all` yields the newest first, and each goes to the front of `resp_send_list`. -/
def nvmetTcpProcessRespList (q : NvmetTcpQueue) : NvmetTcpQueue :=
  { q with
    respList := []
    respSendList := q.respList.foldl (fun l i => i :: l) q.respSendList
    sendListLen := q.sendListLen + q.respList.length }

def nvmetTcpFetchCmd (c : Config) (q : NvmetTcpQueue) : Option CmdId × NvmetTcpQueue :=
  let q := if q.respSendList = [] then nvmetTcpProcessRespList q else q
  match q.respSendList with
  | [] => (none, { q with sndCmd := none })
  | i :: rest =>
    (some i,
      { q with
        sndCmd := some i
        respSendList := rest
        sendListLen := q.sendListLen - 1 }.modifyCmd i (setupFirstPdu c i))

def nvmetTcpQueueResponse (c : Config) (i : CmdId) (q : NvmetTcpQueue) : NvmetTcpQueue :=
  { q with respList := i :: q.respList, queued := q.queued ++ [responsePdus c i (q.cmds i)] }

section TrySend

variable (c : Config) (i : CmdId)

/-- `pdu + cmd->offset` counts in units of the header, which is 24 bytes for all three. -/
def hdrOff (cmd : NvmetTcpCmd) : ℕ := 24 * cmd.offset

def hdrLeft (cmd : NvmetTcpCmd) : ℕ := 24 + nvmetTcpHdgstLen c - cmd.offset

def skip (n : ℕ) (cmd : NvmetTcpCmd) : NvmetTcpCmd := { cmd with offset := cmd.offset + n }

/-- A header is handed over from `cmd->offset` on; `done` is what follows its last byte. -/
def trySendHdr (buf : Buffer) (done : NvmetTcpQueue → NvmetTcpQueue) (q : NvmetTcpQueue) :
    ℤ × NvmetTcpQueue :=
  let cmd := q.cmds i
  let left := hdrLeft c cmd
  match q.emit c ⟨i, buf, hdrOff cmd, left⟩ (((buf.of cmd).drop cmd.offset).take left) with
  | (none, q) => (1, q)
  | (some ret, q) =>
    if ret ≤ 0 then (ret, q)
    else
      let q := q.modifyCmd i (skip ret.toNat)
      if left - ret.toNat ≠ 0 then (-EAGAIN, q) else (1, done q)

def dataPduDone (q : NvmetTcpQueue) : NvmetTcpQueue :=
  q.modifyCmd i fun cmd => { cmd with state := .data, offset := 0 }

def nvmetTrySendDataPdu (q : NvmetTcpQueue) : ℤ × NvmetTcpQueue :=
  trySendHdr c i .dataPdu (dataPduDone i) q

def dataDone (q : NvmetTcpQueue) : NvmetTcpQueue :=
  let q :=
    if c.dataDigest then q.modifyCmd i fun cmd => { cmd with state := .ddgst, offset := 0 }
    else if c.sqhdDisabled then nvmetTcpPutCmd { q with sndCmd := none } i
    else q.modifyCmd i (nvmetSetupResponsePdu c)
  if c.sqhdDisabled then q.sglFree i else q

def dataAdvance (sg : SgList) (j ret : ℕ) (cmd : NvmetTcpCmd) : NvmetTcpCmd :=
  let cmd := { cmd with offset := cmd.offset + ret, wbytesDone := cmd.wbytesDone + ret }
  if cmd.offset = sg.entryLen j then { cmd with curSg := sg.sgNext j, offset := 0 } else cmd

/-- The loop of `nvmet_try_send_data`. Every turn that goes on sends at least one byte, so the
fuel given below is never used up. -/
def trySendDataLoop : ℕ → NvmetTcpQueue → ℤ × NvmetTcpQueue
  | 0, q => (1, q)
  | fuel + 1, q =>
    let cmd := q.cmds i
    match cmd.curSg, cmd.req.sg with
    | some j, some sg =>
      let left := sg.entryLen j - cmd.offset
      let off := PAGE_SIZE * j + cmd.offset
      match q.emit c ⟨i, .page sg.id, off, left⟩ ((sg.data.drop off).take left) with
      | (none, q) => (1, q)
      | (some ret, q) =>
        if ret ≤ 0 then (ret, q)
        else trySendDataLoop fuel (q.modifyCmd i (dataAdvance sg j ret.toNat))
    | _, _ => (1, dataDone c i q)

def nvmetTrySendData (q : NvmetTcpQueue) : ℤ × NvmetTcpQueue :=
  trySendDataLoop c i ((q.cmds i).sgData.length + 2) q

def responseDone (q : NvmetTcpQueue) : NvmetTcpQueue :=
  nvmetTcpPutCmd { q.sglFree i with sndCmd := none } i

/-- Into the caravan it goes unconditionally, and the caravan keeps the command. -/
def nvmetTrySendResponse (q : NvmetTcpQueue) : ℤ × NvmetTcpQueue :=
  if aggregates c then
    let cmd := q.cmds i
    let left := hdrLeft c cmd
    if q.i10TargetIsCaravanFull then (1, q.mark)
    else
      (1, { q.append ⟨i, .rspPdu, hdrOff cmd, left⟩ with
        caravanCmds := q.caravanCmds ++ [i], sndCmd := none }.modifyCmd i (skip left))
  else trySendHdr c i .rspPdu (responseDone i) q

def r2tDone (q : NvmetTcpQueue) : NvmetTcpQueue :=
  { q with sndCmd := none, waiting := q.waiting ++ [i] }

def nvmetTrySendR2t (q : NvmetTcpQueue) : ℤ × NvmetTcpQueue := trySendHdr c i .r2tPdu (r2tDone i) q

/-- `&cmd->exp_ddgst + cmd->offset` counts in units of `__le32`; what follows the digest in the
structure is left open. -/
def nvmetTrySendDdgst (q : NvmetTcpQueue) : ℤ × NvmetTcpQueue :=
  let cmd := q.cmds i
  match q.kernelSend ((cmd.expDdgst.drop (4 * cmd.offset)).take
      (NVME_TCP_DIGEST_LENGTH - cmd.offset)) with
  | (ret, q) =>
    if ret ≤ 0 then (ret, q)
    else
      let q := q.modifyCmd i (skip ret.toNat)
      if c.sqhdDisabled then (1, nvmetTcpPutCmd { q with sndCmd := none } i)
      else (1, q.modifyCmd i (nvmetSetupResponsePdu c))

/-- A stage of `nvmet_tcp_try_send_one`: run it in its state, and stop when it did not succeed. -/
def stage (st : SendState) (f : NvmetTcpQueue → ℤ × NvmetTcpQueue)
    (next : ℤ → NvmetTcpQueue → ℤ × NvmetTcpQueue) (ret : ℤ) (q : NvmetTcpQueue) :
    ℤ × NvmetTcpQueue :=
  if (q.cmds i).state = st then
    match f q with
    | (ret, q) => if ret ≤ 0 then (ret, q) else next ret q
  else next ret q

/-- `nvmet_tcp_try_send_one` behind its fetch. -/
def trySendCmd (q : NvmetTcpQueue) : ℤ × NvmetTcpQueue :=
  let p :=
    stage i .dataPdu (nvmetTrySendDataPdu c i)
      (stage i .data (nvmetTrySendData c i)
        (stage i .ddgst (nvmetTrySendDdgst c i)
          (stage i .r2t (nvmetTrySendR2t c i)
            (stage i .response (nvmetTrySendResponse c i) Prod.mk)))) 0 q
  (if p.1 < 0 then if p.1 = -EAGAIN then 0 else p.1 else 1, p.2)

end TrySend

/-- The queue is not disconnecting. -/
def nvmetTcpTrySendOne (c : Config) (q : NvmetTcpQueue) : ℤ × NvmetTcpQueue :=
  match q.sndCmd with
  | some i => trySendCmd c i q
  | none =>
    match nvmetTcpFetchCmd c q with
    | (none, q) => (0, q)
    | (some i, q) => trySendCmd c i q

def freeCaravanCmds (q : NvmetTcpQueue) : NvmetTcpQueue :=
  q.caravanCmds.foldl (fun q i => nvmetTcpPutCmd (q.sglFree i) i) q

/-- A caravan has been given to the socket, whatever it made of it. -/
def caravanSent (q : NvmetTcpQueue) : NvmetTcpQueue :=
  { freeCaravanCmds q with
    caravanIovs := [], caravanCmds := [], nrCaravanMapped := 0, caravanLen := 0, sendNow := false }

/-- How a turn of the loop of `nvmet_tcp_try_send` ends: the function returns, with or without
having set SOCK_NOSPACE, or the loop goes on. -/
inductive TurnEnd
  | done (ret : ℤ) (stalled : Bool)
  | more
  deriving DecidableEq, Repr

/-- One turn of the loop of `nvmet_tcp_try_send`; `last` is `i == budget - 1`, `nospace` what
`i10_target_sndbuf_nospace` finds. -/
def trySendTurn (c : Config) (last nospace : Bool) (q : NvmetTcpQueue) : TurnEnd × NvmetTcpQueue :=
  let p := nvmetTcpTrySendOne c q
  let ret := p.1
  let q := p.2
  let next := if ret ≤ 0 ∨ last then TurnEnd.done ret false else .more
  if c.nvmetTcpAggr ∧ q.caravanLen ≠ 0 ∧ (q.sendNow ∨ ret ≤ 0 ∨ last) then
    if nospace then (.done 0 true, { q with sockNospace := true })
    else (next, caravanSent (q.kernelSend q.caravanBytes).2)
  else (next, q)

end BlkSwitch.Target
