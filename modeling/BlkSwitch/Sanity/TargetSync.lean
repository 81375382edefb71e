import BlkSwitch.Sanity.TargetDebts

/-! The target in step with the messages of a host. What it has not read of them starts where its
next read does, every command it has not had is among them, and so is the data of every command
whose R2T was answered. One read takes it a part of a message further. -/

namespace BlkSwitch.Target

open Bytes NvmetTcpQueue Custody

def saysInline (cmd : NvmeCommand) : Bool :=
  cmd.sgl.type == (NVME_SGL_FMT_DATA_DESC <<< 4) ||| NVME_SGL_FMT_OFFSET

namespace Msg

def job? : Msg → Option Job
  | capsule pdu data _ => some (pdu.cmd, data)
  | h2c _ _ => none

def slot? : Msg → Option CmdId
  | capsule _ _ _ => none
  | h2c pdu _ => some (.slot pdu.ttag.toNat)

/-- The command says how long its data is, and that it follows if it does; the target takes that
much. A read finds zeroes. -/
def Fits (c : Config) : Msg → Prop
  | capsule pdu data inl =>
    data.length = pdu.cmd.sgl.length.toNat ∧
      (pdu.cmd.nvmeIsWrite = false → data = List.replicate data.length 0) ∧
      if inl then saysInline pdu.cmd = true ∧ pdu.cmd.nvmeIsWrite = true ∧ data ≠ [] ∧
      data.length ≤ c.inlineDataSize
      else data ≠ [] → saysInline pdu.cmd = false
  | h2c _ _ => True

variable {c : Config} {data : List Byte}

theorem Framed.capsule_type {pdu : NvmeTcpCmdPdu} {inl : Bool}
    (h : (capsule pdu data inl).Framed c) :
    pdu.hdr.type ≠ nvmeTcpH2cData := by
  intro htype
  have hsize := h.size
  rw [hdr, htype] at hsize
  simp [head, nvmetTcpPduSize, nvmeTcpH2cData, nvmeTcpIcreq, nvmeTcpCmd] at hsize

theorem Framed.h2c_type {pdu : NvmeTcpDataPdu} (h : (h2c pdu data).Framed c) :
    pdu.hdr.type = nvmeTcpH2cData := by
  have hsize := h.size
  by_contra hne
  rw [hdr, head, NvmeTcpXferPdu.encode_length, nvmetTcpPduSize, if_neg hne] at hsize
  split_ifs at hsize <;> omega

end Msg

def jobs (ms : List Msg) : List Job := ms.filterMap Msg.job?

def answered (ms : List Msg) : List CmdId := ms.filterMap Msg.slot?

/-- Where the target is in the messages, and what is left of them. -/
inductive Reading (c : Config) (ms : List Msg) (debts : List (CmdId × Job)) (q : NvmetTcpQueue) :
    List Byte → Prop
  | front (k : ℕ) : AtFront c ms k q → Reading c ms debts q ((msgWire c ms).drop k)
  | body (i : CmdId) (job : Job) : (i, job) ∈ debts → q.rcvState = .data → q.cmd = some i →
      (q.cmds i).rbytesDone + (q.cmds i).recvMsg.count = job.2.length →
      Adjacent (q.cmds i).rbytesDone (q.cmds i).recvMsg.iov (q.cmds i).recvMsg.count →
      (q.cmds i).recvMsg.oops = false →
        Reading c ms debts q (job.2.drop (q.cmds i).rbytesDone ++ msgWire c ms)

/-- The commands whose data is to come, and the messages that are left. `asked` are the commands
whose R2T has not been answered. -/
structure Matched (c : Config) (ms : List Msg) (asked : List CmdId) (debts : List (CmdId × Job))
    (q : NvmetTcpQueue) :
    Prop extends DebtsOk c debts q where
  msgs : ∀ m ∈ ms, m.Framed c ∧ m.Fits c
  waits : q.waiting.Perm (asked ++ answered ms)
  answers : ∀ pdu data, Msg.h2c pdu data ∈ ms → ∃ cmd,
    (CmdId.slot pdu.ttag.toNat, (cmd, data)) ∈ debts ∧ pdu.first = 0 ∧
    pdu.second.toNat = data.length

structure Synced (c : Config) (ms : List Msg) (asked : List CmdId) (debts : List (CmdId × Job))
    (q : NvmetTcpQueue) (wire : List Byte) : Prop extends Matched c ms asked debts q where
  reading : Reading c ms debts q wire

/-- The data of a command is not on its way. -/
def Awaits (ms : List Msg) (q : NvmetTcpQueue) (i : CmdId) : Prop :=
  q.cmd ≠ some i ∧ i ∉ answered ms

/-- The jobs that a read brings are accounted for. A command goes on waiting for data that is not on
its way, and another does so when it came without its data. -/
structure Handles (env : Env) (ms ms' : List Msg) (debts debts' : List (CmdId × Job))
    (q q' : NvmetTcpQueue) (got ran refused : List Job) : Prop where
  rest : ms' ⊆ ms
  stays : ∀ d ∈ debts, q.cmd ≠ some d.1 → d ∈ debts'
  awaits : ∀ d ∈ debts', Awaits ms' q' d.1 →
    d ∈ debts ∧ Awaits ms q d.1 ∨ ∃ pdu data, Msg.capsule pdu data false ∈ ms ∧
      d.2 = (pdu.cmd, data)
  jobs : jobs ms = got ++ jobs ms'
  received : q'.received = q.received ++ got.map Prod.fst
  executed : q'.executed = q.executed ++ ran
  kept : (debts.map Prod.snd ++ got).Perm (ran ++ refused ++ debts'.map Prod.snd)
  refused : refused = if env.init.rejection.isSome then got else []

/-- What is asked of the target at the header of a command: there is a free slot, there is memory,
and the backend takes the command with the length it has or refuses it, but no data that follows
it. -/
structure TakenUp (c : Config) (q : NvmetTcpQueue) (env : Env) (pdu : List Byte) : Prop where
  slot : q.freeList ≠ []
  alloc : env.alloc = .all
  accept : ∀ d, env.init = .accept d → d = (NvmeCommand.decodeAt pdu 8).sgl.length.toNat
  reject : ∀ cqe ∈ env.init.rejection, cqe.status ≠ 0
  skips : ¬ Skips c env pdu

def takesUp (init : ReqInit) (n : ℕ) : Bool :=
  match init with
  | .accept d => d == n
  | .reject cqe => cqe.status != 0

theorem takesUp_iff {init : ReqInit} {n : ℕ} :
    takesUp init n = true ↔
      (∀ d, init = .accept d → d = n) ∧ ∀ cqe ∈ init.rejection, cqe.status ≠ 0 := by
  cases init <;> simp [takesUp, ReqInit.rejection]

instance (c : Config) (q : NvmetTcpQueue) (env : Env) (pdu : List Byte) :
    Decidable (TakenUp c q env pdu) :=
  decidable_of_iff (q.freeList ≠ [] ∧ env.alloc = .all ∧
      takesUp env.init (NvmeCommand.decodeAt pdu 8).sgl.length.toNat = true ∧ ¬ Skips c env pdu)
    ⟨fun ⟨h1, h2, h3, h4⟩ => ⟨h1, h2, (takesUp_iff.1 h3).1, (takesUp_iff.1 h3).2, h4⟩,
      fun h => ⟨h.slot, h.alloc, takesUp_iff.2 ⟨h.accept, h.reject⟩, h.skips⟩⟩

variable {c : Config} {L₀ : Ledger CmdId (pool c)} {ms : List Msg} {asked : List CmdId}
    {debts : List (CmdId × Job)}
  {q q' : NvmetTcpQueue} {i : CmdId} {wire : List Byte}

section Accept

/-- A command as it is taken up, with the length it has. -/
structure Blank (cmd : NvmetTcpCmd) : Prop where
  bytes : cmd.rbytesDone = 0 ∧ cmd.pduLen = 0
  sg : cmd.req.sg = none ∧ cmd.req.transferLen = 0
  status : cmd.req.cqe.status = 0
  len : cmd.req.dataLen = sglLen cmd
  flag : cmd.initFailed = false

theorem freshCmd_cmd (c : Config) (nvmeCmd : NvmeCommand) (cmd : NvmetTcpCmd) :
    (freshCmd c nvmeCmd cmd).req.cmd = nvmeCmd := by simp [freshCmd]

theorem blank_freshCmd {nvmeCmd : NvmeCommand} {cmd : NvmetTcpCmd} {d : ℕ}
    (hd : d = nvmeCmd.sgl.length.toNat) :
    Blank (setDataLen d (freshCmd c nvmeCmd cmd)) := by
  refine ⟨⟨rfl, rfl⟩, ?_, ?_, ?_, rfl⟩ <;> simp [setDataLen, freshCmd, sglLen, hd]

theorem Blank.pages (h : Blank (q.cmds i)) :
    ((mapped q i).cmds i).req.cmd = (q.cmds i).req.cmd ∧
      ((mapped q i).cmds i).req.cqe = (q.cmds i).req.cqe ∧
      ((mapped q i).cmds i).req.transferLen = sglLen (q.cmds i) ∧
      ((mapped q i).cmds i).rbytesDone = 0 ∧
      ((mapped q i).cmds i).pduLen = (if isInline (q.cmds i) then sglLen (q.cmds i) else 0) ∧
      ((mapped q i).cmds i).initFailed = false ∧
      ((mapped q i).cmds i).req.sg = some ⟨q.sglAllocs, List.replicate (sglLen (q.cmds i)) 0⟩ ∧
      ((q.cmds i).req.cmd.nvmeIsWrite = true → sglLen (q.cmds i) ≠ 0 →
        ((mapped q i).cmds i).recvMsg.hasIov = true) := by
  simp only [mapped, sglAlloc, modifyCmd_cmds_self]
  refine ⟨rfl, rfl, ?_, h.bytes.1, ?_, h.flag, rfl, fun hw hne => ?_⟩
  · simp [withSg, mapLen, h.sg.2]
  · simp [withSg, mapLen, h.bytes.2]
  · simp [withSg, mapLen, NvmetTcpCmd.hasDataIn, hw, h.bytes.1, h.sg.2, Nat.pos_of_ne_zero hne]

theorem mapData_all (h0 : (q.cmds i).req.dataLen ≠ 0)
    (hin : isInline (q.cmds i) = true → (q.cmds i).req.cmd.nvmeIsWrite = true ∧
      sglLen (q.cmds i) ≤ c.inlineDataSize) :
    nvmetTcpMapData c .all i q = (0, mapped q i) := by
  unfold nvmetTcpMapData
  have h2 : ¬ (isInline (q.cmds i) = true ∧ (q.cmds i).req.cmd.nvmeIsWrite = false) := by
    rintro ⟨h1, h2⟩
    rw [(hin h1).1] at h2
    cases h2
  have h3 : ¬ (isInline (q.cmds i) = true ∧ c.inlineDataSize < sglLen (q.cmds i)) := by
    rintro ⟨h1, h3⟩
    exact absurd (hin h1).2 (by omega)
  rw [if_neg h0, if_neg h2, if_neg h3, if_neg (by decide), if_neg fun h => by cases h.2]
  rfl

theorem Blank.accept_none (h : Blank (q.cmds i)) (h0 : sglLen (q.cmds i) = 0) :
    startAccepted c .all i q = nvmetPrepareReceivePdu (nvmetReqExecute i q) := by
  have hmap : nvmetTcpMapData c .all i q = (0, q) := if_pos (h.len.trans h0)
  have hneed : (q.cmds i).needDataIn = false := by
    simp [NvmetTcpCmd.needDataIn, NvmetTcpCmd.hasDataIn, h.sg.2]
  unfold startAccepted
  rw [hmap]
  simp [hneed]

theorem Blank.accept_read (h : Blank (q.cmds i)) (h0 : sglLen (q.cmds i) ≠ 0)
    (hin : isInline (q.cmds i) = false) (hw : (q.cmds i).req.cmd.nvmeIsWrite = false) :
    startAccepted c .all i q = nvmetPrepareReceivePdu (nvmetReqExecute i (mapped q i)) := by
  have hmap : nvmetTcpMapData c .all i q = (0, mapped q i) :=
    mapData_all (by rw [h.len]; exact h0) (by simp [hin])
  have hneed : ((mapped q i).cmds i).needDataIn = false := by
    simp [NvmetTcpCmd.needDataIn, NvmetTcpCmd.hasDataIn, h.pages.1, hw]
  unfold startAccepted
  rw [hmap]
  simp [hneed]

theorem Blank.accept_ask (h : Blank (q.cmds i)) (h0 : sglLen (q.cmds i) ≠ 0)
    (hin : isInline (q.cmds i) = false) (hw : (q.cmds i).req.cmd.nvmeIsWrite = true) :
    startAccepted c .all i q = nvmetPrepareReceivePdu (nvmetTcpQueueResponse c i (mapped q i)) := by
  have hmap : nvmetTcpMapData c .all i q = (0, mapped q i) :=
    mapData_all (by rw [h.len]; exact h0) (by simp [hin])
  obtain ⟨hcmd, hcqe, htl, hrb, hpl, -⟩ := h.pages
  have hneed : ((mapped q i).cmds i).needDataIn = true := by
    simp [NvmetTcpCmd.needDataIn, NvmetTcpCmd.hasDataIn, hcmd, hw, hcqe, h.status, htl, hrb]
    omega
  have hinl : ((mapped q i).cmds i).hasInlineData = false := by
    simp [NvmetTcpCmd.hasInlineData, hpl, hin]
  unfold startAccepted
  rw [hmap]
  simp [hneed, hinl]

theorem Blank.accept_inline (h : Blank (q.cmds i)) (h0 : sglLen (q.cmds i) ≠ 0)
    (hin : isInline (q.cmds i) = true) (hw : (q.cmds i).req.cmd.nvmeIsWrite = true)
    (hle : sglLen (q.cmds i) ≤ c.inlineDataSize) :
    startAccepted c .all i q =
      { mapped q i with rcvState := .data }.modifyCmd i nvmetTcpMapPduIovec := by
  have hmap : nvmetTcpMapData c .all i q = (0, mapped q i) :=
    mapData_all (by rw [h.len]; exact h0) fun _ => ⟨hw, hle⟩
  obtain ⟨hcmd, hcqe, htl, hrb, hpl, -⟩ := h.pages
  have hneed : ((mapped q i).cmds i).needDataIn = true := by
    simp [NvmetTcpCmd.needDataIn, NvmetTcpCmd.hasDataIn, hcmd, hw, hcqe, h.status, htl, hrb]
    omega
  have hinl : ((mapped q i).cmds i).hasInlineData = true := by
    simp [NvmetTcpCmd.hasInlineData, hpl, hin, hcmd, hw, hrb, h0]
  unfold startAccepted
  rw [hmap]
  simp [hneed, hinl]

end Accept

section Slot

variable {rest : List CmdId}

/-- The receive path has slot `i` in its hands, the first that was free. -/
structure TookSlot (i : CmdId) (rest : List CmdId) (q q' : NvmetTcpQueue) : Prop where
  cmds : ∀ j, j ≠ i → q'.cmds j = q.cmds j
  free : q.freeList = i :: rest ∧ q'.freeList = rest
  lists : q'.waiting = q.waiting ∧ q'.executing = q.executing ∧ q'.respList = q.respList ∧
    q'.respSendList = q.respSendList ∧ q'.sndCmd = q.sndCmd ∧ q'.caravanCmds = q.caravanCmds
  rcv : q.rcvState = .pdu ∧ q'.cmd = some i ∧ q'.fatal = q.fatal
  executed : q'.executed = q.executed

theorem TookSlot.execute (h : TookSlot i rest q q') (hk : Kept c L₀ q) (hd : DebtsOk c debts q)
    (hdata : (q'.cmds i).hasDataIn = false) :
    DebtsOk c debts (nvmetPrepareReceivePdu (nvmetReqExecute i q')) := by
  obtain ⟨hw, he, hr, hsl, hn, hcar⟩ := h.lists
  have htake := hd.take hk h.rcv.1 (i := i) (by simp [h.free.1])
    (nvmetPrepareReceivePdu (nvmetReqExecute i q')) []
    h.cmds ⟨hw, hn⟩ ?_ ?_ ?_ (.inl ⟨rfl, hdata⟩)
  · simpa using htake
  · intro j hj
    simp only [nvmetPrepareReceivePdu, nvmetReqExecute, hr, hsl]
    exact hj
  · intro j hj
    simp only [held, receiving_of_pdu h.rcv.1]
    simp only [held, receiving, nvmetPrepareReceivePdu, nvmetReqExecute, hw, he, hr, hsl, hn, hcar,
      List.append_assoc, List.mem_append, List.mem_singleton] at hj ⊢
    grind
  · simp only [nvmetPrepareReceivePdu, nvmetReqExecute, h.free.1, h.free.2]
    exact List.subset_cons_self i rest

theorem TookSlot.ask {job : Job} (h : TookSlot i rest q q') (hk : Kept c L₀ q)
    (hd : DebtsOk c debts q) (ho : Owes job (q'.cmds i)) (hb : (q'.cmds i).rbytesDone = 0) :
    DebtsOk c (debts ++ [(i, job)]) (nvmetPrepareReceivePdu (nvmetTcpQueueResponse c i q')) := by
  obtain ⟨hw, he, hr, hsl, hn, hcar⟩ := h.lists
  refine hd.take hk h.rcv.1 (i := i) (by simp [h.free.1])
    (nvmetPrepareReceivePdu (nvmetTcpQueueResponse c i q')) _ h.cmds ⟨hw, hn⟩ ?_ ?_ ?_
    (.inr ⟨job, rfl, ho, hb, ?_⟩)
  · intro j hj
    simp only [nvmetPrepareReceivePdu, nvmetTcpQueueResponse, hr, hsl, List.cons_append,
      List.mem_cons]
    exact .inr hj
  · intro j hj
    simp only [held, receiving_of_pdu h.rcv.1]
    simp only [held, receiving, nvmetPrepareReceivePdu, nvmetTcpQueueResponse, hw, he, hr, hsl, hn,
      hcar, List.append_assoc, List.mem_append, List.cons_append, List.mem_cons] at hj ⊢
    grind
  · simp only [nvmetPrepareReceivePdu, nvmetTcpQueueResponse, h.free.1, h.free.2]
    exact List.subset_cons_self i rest
  · left
    simp [nvmetPrepareReceivePdu, nvmetTcpQueueResponse]

theorem TookSlot.inline {job : Job} (h : TookSlot i rest q q') (hk : Kept c L₀ q)
    (hd : DebtsOk c debts q) (ho : Owes job (q'.cmds i)) (hb : (q'.cmds i).rbytesDone = 0) :
    DebtsOk c (debts ++ [(i, job)])
    ({ q' with rcvState := .data }.modifyCmd i nvmetTcpMapPduIovec) := by
  obtain ⟨hw, he, hr, hsl, hn, hcar⟩ := h.lists
  have hrecv : receiving ({ q' with rcvState := .data }.modifyCmd i nvmetTcpMapPduIovec) = [i] := by
    simp [receiving, modifyCmd, h.rcv.2.1, nvmetTcpMapPduIovec, ho.flag]
  refine hd.take hk h.rcv.1 (i := i) (by simp [h.free.1]) _ _ ?_ ⟨hw, hn⟩ ?_ ?_ ?_
    (.inr ⟨job, rfl, ?_, ?_, ?_⟩)
  · intro j hj
    rw [modifyCmd_cmds_of_ne _ _ _ hj]
    exact h.cmds j hj
  · intro j hj
    simp only [modifyCmd, hr, hsl]
    exact hj
  · intro j hj
    simp only [held, hrecv] at hj
    simp only [held, receiving_of_pdu h.rcv.1]
    simp only [modifyCmd, hw, he, hr, hsl, hn, hcar, List.append_assoc, List.mem_append,
      List.mem_singleton] at hj ⊢
    grind
  · simp only [modifyCmd, h.free.1, h.free.2]
    exact List.subset_cons_self i rest
  · rw [modifyCmd_cmds_self]
    exact ho.congr rfl rfl rfl rfl
  · rw [modifyCmd_cmds_self]
    exact hb
  · left
    simp [hrecv]

theorem TookSlot.refuse (h : TookSlot i rest q q') (hk : Kept c L₀ q) (hd : DebtsOk c debts q)
    (hdata : (q'.cmds i).hasDataIn = false) (cqe : NvmeCompletion) (n : ℕ) :
    DebtsOk c debts (nvmetPrepareReceivePdu
      ((nvmetReqComplete c i cqe q').modifyCmd i (setDataLen n))) := by
  obtain ⟨hw, he, hr, hsl, hn, hcar⟩ := h.lists
  have htake := hd.take hk h.rcv.1 (i := i) (by simp [h.free.1])
    (nvmetPrepareReceivePdu ((nvmetReqComplete c i cqe q').modifyCmd i (setDataLen n))) [] ?_
      ⟨hw, hn⟩ ?_ ?_ ?_ (.inl ⟨rfl, ?_⟩)
  · simpa using htake
  · intro j hj
    simp only [nvmetPrepareReceivePdu]
    rw [modifyCmd_cmds_of_ne _ _ _ hj, reqComplete_cmds_of_ne hj]
    exact h.cmds j hj
  · intro j hj
    simp only [nvmetPrepareReceivePdu, nvmetReqComplete, nvmetTcpQueueResponse, modifyCmd, hr, hsl,
      List.cons_append, List.mem_cons]
    exact .inr hj
  · intro j hj
    simp only [held, receiving_of_pdu h.rcv.1]
    simp only [held, receiving, nvmetPrepareReceivePdu, nvmetReqComplete, nvmetTcpQueueResponse,
      modifyCmd, hw, he, hr, hsl, hn, hcar, List.append_assoc, List.mem_append, List.cons_append,
      List.mem_cons] at hj ⊢
    grind
  · simp only [nvmetPrepareReceivePdu, nvmetReqComplete, nvmetTcpQueueResponse, modifyCmd, h.free.1,
      h.free.2]
    exact List.subset_cons_self i rest
  · simpa [nvmetPrepareReceivePdu, nvmetReqComplete, nvmetTcpQueueResponse, setDataLen,
      NvmetTcpCmd.hasDataIn]
      using hdata

end Slot

section Bytes

variable {cmd : NvmetTcpCmd} {id : ℕ} {data mem₀ b : List Byte}

theorem mapPduIovec_adjacent {sg : SgList} (hsg : cmd.req.sg = some sg)
    (hlen : cmd.rbytesDone + cmd.pduLen ≤ sg.data.length) (hpage : cmd.rbytesDone % PAGE_SIZE = 0) :
    Adjacent cmd.rbytesDone (nvmetTcpMapPduIovec cmd).recvMsg.iov cmd.pduLen := by
  obtain ⟨hadj, hcount⟩ := pduIovec_adjacent sg cmd.rbytesDone cmd.pduLen hpage hlen
  rw [← hsg] at hadj hcount
  change Adjacent cmd.rbytesDone
    ((pduIovec cmd.req.sg cmd.rbytesDone cmd.pduLen).take (divRoundUp cmd.pduLen PAGE_SIZE)) _
  rw [← hcount, List.take_length]
  exact hadj

theorem mapPduIovec_oops (hsg : cmd.req.sg = some sg)
    (hlen : cmd.rbytesDone + cmd.pduLen ≤ sg.data.length) (hpage : cmd.rbytesDone % PAGE_SIZE = 0)
    (hiov : cmd.recvMsg.hasIov = true) :
    (nvmetTcpMapPduIovec cmd).recvMsg.oops = false := by
  have hsum := (pduIovec_adjacent sg cmd.rbytesDone cmd.pduLen hpage hlen).1.sum
  simp [nvmetTcpMapPduIovec, iovecOops, hiov, hsg, hsum]

theorem Stored.read (h : Stored id data mem₀ cmd) (hmem : mem₀.length = data.length)
    (hadj : Adjacent cmd.rbytesDone cmd.recvMsg.iov cmd.recvMsg.count)
    (hle : b.length ≤ cmd.recvMsg.count) (hfit : cmd.rbytesDone + cmd.recvMsg.count ≤ data.length)
    (hpre : b <+: data.drop cmd.rbytesDone) :
    Stored id data mem₀ (recvInto b cmd) ∧
      Adjacent (recvInto b cmd).rbytesDone (recvInto b cmd).recvMsg.iov
      (recvInto b cmd).recvMsg.count := by
  have hlen : (data.take cmd.rbytesDone ++ mem₀.drop cmd.rbytesDone).length = data.length := by
    simp
    omega
  have hdata : cmd.sgData = data.take cmd.rbytesDone ++ mem₀.drop cmd.rbytesDone := by
    rw [NvmetTcpCmd.sgData, h]
    rfl
  obtain ⟨hwrite, hadj'⟩ := hadj.write cmd.sgData b (by rw [hdata, hlen]; omega) hle
  refine ⟨?_, hadj'⟩
  change (cmd.req.sg.map fun sg => (⟨sg.id, (iovWrite cmd.sgData cmd.recvMsg.iov b).1⟩ : SgList)) =
    _
  rw [hwrite, hdata, writeAt_filled (by omega) hpre, h]
  rfl

end Bytes

section Step

variable {env : Env} {b : List Byte} {k : ℕ} {m : Msg} {debts' : List (CmdId × Job)}

theorem DebtsOk.readHeader (h : DebtsOk c debts q) (b : List Byte) :
    DebtsOk c debts (readHeader b q) :=
  ⟨h.ids, h.slots, h.owes, h.fresh, h.due, h.all, h.asks, h.free⟩

theorem drop_front (hfull : k + b.length = (m.front c).length) :
    ((msgWire c (m :: ms)).drop k).drop b.length = m.body ++ msgWire c ms := by
  rw [List.drop_drop, hfull, msgWire_cons, List.drop_left]

theorem Matched.next (h : Matched c (m :: ms) asked debts q) (hslot : m.slot? = none)
    (hsub : debts ⊆ debts') (hd : DebtsOk c debts' q') (hw : q'.waiting = q.waiting) {w : List Byte}
    (hr : Reading c ms debts' q' w) :
    Synced c ms asked debts' q' w := by
  refine ⟨⟨hd, fun m' hm => h.msgs m' (List.mem_cons_of_mem _ hm), ?_, ?_⟩, hr⟩
  · rw [hw]
    simpa [answered, hslot] using h.waits
  · intro pdu data hin
    obtain ⟨cmd, hmem, hrest⟩ := h.answers pdu data (List.mem_cons_of_mem _ hin)
    exact ⟨cmd, hsub hmem, hrest⟩

theorem tookSlot_started {rest : List CmdId} (hs : q.rcvState = .pdu)
    (hf : q.freeList = i :: rest) :
    TookSlot i rest q (started c i rest q) :=
  ⟨fun _ hj => modifyCmd_cmds_of_ne _ _ _ hj, ⟨hf, rfl⟩, ⟨rfl, rfl, rfl, rfl, rfl, rfl⟩,
    ⟨hs, rfl, rfl⟩, rfl⟩

theorem TookSlot.cmdOnly {rest : List CmdId} {p : NvmetTcpQueue} (h : TookSlot i rest q q')
    (hc : CmdOnly i q' p) (he : p.executed = q'.executed) : TookSlot i rest q p := by
  obtain ⟨hf, hw, hex, hr, hsl, hn, hcar, -⟩ := hc.lists
  obtain ⟨hw', hex', hr', hsl', hn', hcar'⟩ := h.lists
  exact ⟨fun j hj => (hc.cmds j hj).trans (h.cmds j hj), ⟨h.free.1, hf.trans h.free.2⟩,
    ⟨hw.trans hw', hex.trans hex',
    hr.trans hr', hsl.trans hsl', hn.trans hn', hcar.trans hcar'⟩,
    ⟨h.rcv.1, hc.rcv.2.1.trans h.rcv.2.1,
    hc.rcv.2.2.trans h.rcv.2.2⟩, he.trans h.executed⟩

theorem Matched.accepted {pdu : NvmeTcpCmdPdu} {data : List Byte} {inl : Bool} {rest : List CmdId}
    (hk : Kept c L₀ q) (h : Matched c (.capsule pdu data inl :: ms) asked debts q)
    (ht : TookSlot i rest q q') (hb : Blank (q'.cmds i)) (hcmd : (q'.cmds i).req.cmd = pdu.cmd) :
    (startAccepted c .all i q').fatal = q.fatal ∧
      (startAccepted c .all i q').received = q'.received ∧
      ∃ debts' ran, Synced c ms asked debts' (startAccepted c .all i q')
          ((Msg.capsule pdu data inl).body ++ msgWire c ms) ∧
        (startAccepted c .all i q').executed = q.executed ++ ran ∧
        (debts.map Prod.snd ++ [(pdu.cmd, data)]).Perm (ran ++ debts'.map Prod.snd) ∧
        debts ⊆ debts' ∧ ∀ d ∈ debts', (startAccepted c .all i q').cmd ≠ some d.1 → d ∈ debts ∨
        inl = false ∧ d.2 = (pdu.cmd, data) := by
  obtain ⟨-, hlen, hzero, hwhere⟩ := h.msgs _ List.mem_cons_self
  have hsgl : sglLen (q'.cmds i) = data.length := by rw [sglLen, hcmd, hlen]
  have hinl : isInline (q'.cmds i) = saysInline pdu.cmd := by rw [← hcmd]; rfl
  have htm : TookSlot i rest q (mapped q' i) := ht.cmdOnly cmdOnly_mapped rfl
  obtain ⟨hcmd', hcqe, htl, hrb, hpl, hflag, hsg, hiov⟩ := hb.pages
  have hbody : inl = false → (Msg.capsule pdu data inl).body = [] :=
    fun hi => by simp [Msg.body, hi]
  have hexec : ∀ p : NvmetTcpQueue, TookSlot i rest q p → (p.cmds i).hasDataIn = false →
    (p.cmds i).req.cmd = pdu.cmd →
      (p.cmds i).sgData = data → p.received = q'.received → inl = false →
      (nvmetPrepareReceivePdu (nvmetReqExecute i p)).fatal = q.fatal ∧
      (nvmetPrepareReceivePdu (nvmetReqExecute i p)).received = q'.received ∧
      ∃ debts' ran, Synced c ms asked debts' (nvmetPrepareReceivePdu (nvmetReqExecute i p))
          ((Msg.capsule pdu data inl).body ++ msgWire c ms) ∧
        (nvmetPrepareReceivePdu (nvmetReqExecute i p)).executed = q.executed ++ ran ∧
        (debts.map Prod.snd ++ [(pdu.cmd, data)]).Perm (ran ++ debts'.map Prod.snd) ∧
        debts ⊆ debts' ∧ ∀ d ∈ debts',
        (nvmetPrepareReceivePdu (nvmetReqExecute i p)).cmd ≠ some d.1 →
          d ∈ debts ∨ inl = false ∧ d.2 = (pdu.cmd, data) := by
    intro p hp hno hpc hpd hpr hi
    refine ⟨hp.rcv.2.2, hpr, debts, [(pdu.cmd, data)], ?_, ?_, List.perm_append_comm,
      List.Subset.refl _, fun d hd _ => .inl hd⟩
    · rw [hbody hi]
      exact h.next rfl (List.Subset.refl _) (hp.execute hk h.toDebtsOk hno) hp.lists.1
        (.front 0 (atFront_prepare _ _))
    · change p.executed ++ [((p.cmds i).req.cmd, (p.cmds i).sgData)] = _
      rw [hp.executed, hpc, hpd]
  by_cases h0 : data = []
  · -- nothing to transfer
    have hi : inl = false := by
      cases inl with
      | true => exact absurd h0 hwhere.2.2.1
      | false => rfl
    rw [hb.accept_none (by rw [hsgl, h0]; rfl)]
    refine hexec q' ht ?_ hcmd ?_ rfl hi
    · simp [NvmetTcpCmd.hasDataIn, hb.sg.2]
    · simp [NvmetTcpCmd.sgData, hb.sg.1, h0]
  have hne : sglLen (q'.cmds i) ≠ 0 := by
    rw [hsgl]
    exact fun he => h0 (List.length_eq_zero_iff.1 he)
  have hown : pdu.cmd.nvmeIsWrite = true → Owes (pdu.cmd, data) ((mapped q' i).cmds i) := by
    intro hw
    refine ⟨hcmd'.trans hcmd, hw, by rw [hcqe, hb.status], by rw [htl, hsgl], ?_, hflag,
      hiov (by rw [hcmd, hw]) hne, q'.sglAllocs, ?_⟩
    · rw [hrb]
      exact List.length_pos_iff.2 h0
    · rw [Stored, hrb, hsg, hsgl]
      rfl
  cases hw : pdu.cmd.nvmeIsWrite with
  | false =>
    have hi : inl = false := by
      cases inl with
      | true =>
        have hwr := hwhere.2.1
        rw [hw] at hwr
        cases hwr
      | false => rfl
    subst hi
    rw [hb.accept_read hne (hinl.trans (hwhere h0)) (by rw [hcmd, hw])]
    refine hexec _ htm ?_ (hcmd'.trans hcmd) ?_ rfl rfl
    · simp [NvmetTcpCmd.hasDataIn, hcmd', hcmd, hw]
    · rw [NvmetTcpCmd.sgData, hsg, hsgl]
      exact (hzero hw).symm
  | true =>
    cases inl with
    | false =>
      rw [hb.accept_ask hne (hinl.trans (hwhere h0)) (by rw [hcmd, hw])]
      refine ⟨htm.rcv.2.2, rfl, debts ++ [(i, (pdu.cmd, data))], [], ?_,
        ?_, by simp, List.subset_append_left _ _, ?_⟩
      · exact h.next rfl (List.subset_append_left _ _)
          (htm.ask hk h.toDebtsOk (hown hw) hrb) htm.lists.1
          (.front 0 (atFront_prepare _ _))
      · exact htm.executed.trans (List.append_nil _).symm
      · intro d hd _
        rcases List.mem_append.1 hd with hd | hd
        · exact .inl hd
        · rw [List.mem_singleton.1 hd]
          exact .inr ⟨rfl, rfl⟩
    | true =>
      obtain ⟨hsay, -, -, hle⟩ := hwhere
      rw [hb.accept_inline hne (hinl.trans hsay) (by rw [hcmd, hw]) (by rw [hsgl]; exact hle)]
      rw [hinl, hsay, if_pos rfl, hsgl] at hpl
      have hcmds : (({ mapped q' i with rcvState := .data } : NvmetTcpQueue).modifyCmd i
        nvmetTcpMapPduIovec).cmds i =
          nvmetTcpMapPduIovec ((mapped q' i).cmds i) := modifyCmd_cmds_self _ _ _
      have hrb' : (nvmetTcpMapPduIovec ((mapped q' i).cmds i)).rbytesDone = 0 := hrb
      have hcount : (nvmetTcpMapPduIovec ((mapped q' i).cmds i)).recvMsg.count = data.length := hpl
      refine ⟨htm.rcv.2.2, rfl, debts ++ [(i, (pdu.cmd, data))], [], ?_,
        ?_, by simp, List.subset_append_left _ _, ?_⟩
      · refine h.next rfl (List.subset_append_left _ _)
          (htm.inline hk h.toDebtsOk (hown hw) hrb) htm.lists.1 ?_
        have hread : Reading c ms (debts ++ [(i, (pdu.cmd, data))])
            ({ mapped q' i with rcvState := .data }.modifyCmd i nvmetTcpMapPduIovec) _ :=
          .body i (pdu.cmd, data) (by simp) rfl htm.rcv.2.1
            (by rw [hcmds, hrb', hcount, Nat.zero_add]) ?_ ?_
        · rw [hcmds, hrb'] at hread
          exact hread
        · have hadj : Adjacent ((mapped q' i).cmds i).rbytesDone
            (nvmetTcpMapPduIovec ((mapped q' i).cmds i)).recvMsg.iov
              ((mapped q' i).cmds i).pduLen :=
            mapPduIovec_adjacent hsg (by rw [hrb, hpl, hsgl, List.length_replicate, Nat.zero_add])
              (by rw [hrb]; rfl)
          rw [hcmds, hcount, ← hpl]
          exact hadj
        · rw [hcmds]
          exact mapPduIovec_oops hsg (by rw [hrb, hpl, hsgl, List.length_replicate, Nat.zero_add])
            (by rw [hrb]; rfl)
            (hown hw).iov
      · exact htm.executed.trans (List.append_nil _).symm
      · intro d hd hne'
        rcases List.mem_append.1 hd with hd | hd
        · exact .inl hd
        · rw [List.mem_singleton.1 hd] at hne'
          exact absurd htm.rcv.2.1 hne'

theorem Matched.refused {pdu : NvmeTcpCmdPdu} {data : List Byte} {inl : Bool} {rest : List CmdId}
    (hk : Kept c L₀ q) (h : Matched c (.capsule pdu data inl :: ms) asked debts q)
    (ht : TookSlot i rest q q') (hno : (q'.cmds i).hasDataIn = false)
    (hcmd : (q'.cmds i).req.cmd = pdu.cmd) (cqe : NvmeCompletion)
    (hskip : ¬ (pdu.cmd.nvmeIsWrite = true ∧ pdu.cmd.sgl.length.toNat ≤ c.inlineDataSize))
    (alloc : Alloc) :
    (nvmetTcpHandleReqFailure c alloc i (nvmetReqComplete c i cqe q')).fatal = q.fatal ∧
      (nvmetTcpHandleReqFailure c alloc i (nvmetReqComplete c i cqe q')).received = q'.received ∧
      Synced c ms asked debts (nvmetTcpHandleReqFailure c alloc i (nvmetReqComplete c i cqe q'))
        ((Msg.capsule pdu data inl).body ++ msgWire c ms) ∧
      (nvmetTcpHandleReqFailure c alloc i (nvmetReqComplete c i cqe q')).executed = q.executed := by
  obtain ⟨-, hlen, -, hwhere⟩ := h.msgs _ List.mem_cons_self
  have hi : inl = false := by
    cases inl with
    | true => exact absurd ⟨hwhere.2.1, hlen ▸ hwhere.2.2.2⟩ hskip
    | false => rfl
  have hrun : nvmetTcpHandleReqFailure c alloc i (nvmetReqComplete c i cqe q') =
    nvmetPrepareReceivePdu
      ((nvmetReqComplete c i cqe q').modifyCmd i (setDataLen pdu.cmd.sgl.length.toNat)) := by
    have hsame : ((nvmetReqComplete c i cqe q').cmds i).req.cmd = pdu.cmd := by
      simpa [nvmetReqComplete, nvmetTcpQueueResponse] using hcmd
    have hset : (nvmetReqComplete c i cqe q').modifyCmd i (fun cmd =>
        { cmd with req := { cmd.req with dataLen := cmd.req.cmd.sgl.length.toNat } }) =
        (nvmetReqComplete c i cqe q').modifyCmd i (setDataLen pdu.cmd.sgl.length.toNat) := by
      simp only [modifyCmd, setDataLen, hsame]
    unfold nvmetTcpHandleReqFailure
    rw [hset]
    simp only
    rw [if_pos]
    rw [modifyCmd_cmds_self]
    simp only [setDataLen, hsame]
    by_cases hw : pdu.cmd.nvmeIsWrite = true
    · exact .inr (Nat.lt_of_not_le fun hle => hskip ⟨hw, hle⟩)
    · exact .inl (by simpa using hw)
  rw [hrun]
  refine ⟨ht.rcv.2.2, rfl, ?_, ht.executed⟩
  subst hi
  exact h.next rfl (List.Subset.refl _) (ht.refuse hk h.toDebtsOk hno cqe _) ht.lists.1
    (.front 0 (atFront_prepare _ _))

theorem Matched.readHeader (h : Matched c ms asked debts q) (b : List Byte) :
    Matched c ms asked debts (readHeader b q) :=
  ⟨h.toDebtsOk.readHeader b, h.msgs, h.waits, h.answers⟩

/-- The header of a command is complete. -/
theorem Matched.capsule (env : Env) {pdu : NvmeTcpCmdPdu} {data : List Byte} {inl : Bool}
    (hk : Kept c L₀ q) (h : Matched c (.capsule pdu data inl :: ms) asked debts q)
    (hs : q.rcvState = .pdu) {r : List Byte}
    (hpdu : q.pdu = (Msg.capsule pdu data inl).front c ++ r) (hok : TakenUp c q env q.pdu) :
    (doneRecvLive c env q).1 = false ∧ (doneRecvLive c env q).2.fatal = q.fatal ∧
      ∃ debts' ran refused, Synced c ms asked debts' (doneRecvLive c env q).2
          ((Msg.capsule pdu data inl).body ++ msgWire c ms) ∧
        Handles env (.capsule pdu data inl :: ms) ms debts debts' q (doneRecvLive c env q).2
        [(pdu.cmd, data)] ran
          refused := by
  have ht : (NvmeTcpHdr.decode q.pdu).type ≠ nvmeTcpH2cData := by
    rw [hpdu, Msg.decode_front]
    exact (h.msgs _ List.mem_cons_self).1.capsule_type
  have hcmd : NvmeCommand.decodeAt q.pdu 8 = pdu.cmd := by
    rw [hpdu, Msg.front, List.append_assoc]
    exact NvmeTcpCmdPdu.decode_cmd pdu _
  have hidle : q.cmd = none := hk.recv.idle hs
  have hawaits : ∀ d, d.1 ∉ answered ms →
      Awaits (.capsule pdu data inl :: ms) q (d : CmdId × Job).1 :=
    fun d hd => ⟨by simp [hidle], by simpa [answered, Msg.slot?] using hd⟩
  obtain ⟨i, rest, hf⟩ := List.exists_cons_of_ne_nil hok.slot
  have htook := tookSlot_started (c := c) hs hf
  cases hinit : env.init with
  | accept d =>
    have hd : CmdOnly i (started c i rest q) ((started c i rest q).modifyCmd i (setDataLen d)) :=
      cmdOnly_modifyCmd ⟨rfl, rfl⟩
    have hcmds : ((started c i rest q).modifyCmd i (setDataLen d)).cmds i =
        setDataLen d (freshCmd c (NvmeCommand.decodeAt q.pdu 8) (q.cmds i)) := by
      rw [modifyCmd_cmds_self, started, modifyCmd_cmds_self]
    rw [doneRecvPdu_accept ht hf hinit, hok.alloc]
    obtain ⟨hfatal, hrecv, debts', ran, hsync, hexec, hperm, hsub, hnew⟩ :=
      h.accepted hk (htook.cmdOnly hd rfl)
      (by rw [hcmds]; exact blank_freshCmd (hok.accept d hinit))
      (by rw [hcmds, ← hcmd]; exact freshCmd_cmd _ _ _)
    refine ⟨rfl, hfatal, debts', ran, [], hsync, List.subset_cons_self _ _, fun d hd _ => hsub hd,
      ?_, rfl, ?_, hexec, by simpa using hperm, by simp [hinit, ReqInit.rejection]⟩
    · intro d hd haw
      rcases hnew d hd haw.1 with hd | ⟨rfl, hd⟩
      · exact .inl ⟨hd, hawaits d haw.2⟩
      · exact .inr ⟨pdu, data, List.mem_cons_self, hd⟩
    · rw [hrecv, ← hcmd]
      rfl
  | reject cqe =>
    have hcmds : (started c i rest q).cmds i = freshCmd c (NvmeCommand.decodeAt q.pdu 8)
        (q.cmds i) := by
      rw [started, modifyCmd_cmds_self]
    have hskip : ¬ (pdu.cmd.nvmeIsWrite = true ∧ pdu.cmd.sgl.length.toNat ≤ c.inlineDataSize) := by
      rintro ⟨h1, h2⟩
      exact hok.skips ⟨ht, by simp [hinit, ReqInit.rejection], by rwa [hcmd], by rwa [hcmd]⟩
    rw [doneRecvPdu_reject ht hf hinit]
    obtain ⟨hfatal, hrecv, hsync, hexec⟩ :=
      h.refused hk htook (by simp [hcmds, freshCmd, NvmetTcpCmd.hasDataIn])
      (by rw [hcmds, ← hcmd]; exact freshCmd_cmd _ _ _) cqe hskip env.alloc
    refine ⟨rfl, hfatal, debts, [], [(pdu.cmd, data)], hsync, List.subset_cons_self _ _,
      fun d hd _ => hd, fun d hd haw => .inl ⟨hd, hawaits d haw.2⟩, rfl,
      ?_, by rw [hexec, List.append_nil], List.perm_append_comm, by simp [hinit, ReqInit.rejection]⟩
    rw [hrecv, ← hcmd]
    rfl

theorem Matched.answer (env : Env) {pdu : NvmeTcpDataPdu} {data : List Byte} (hk : Kept c L₀ q)
    (h : Matched c (.h2c pdu data :: ms) asked debts q) (hs : q.rcvState = .pdu) {r : List Byte}
    (hpdu : q.pdu = (Msg.h2c pdu data).front c ++ r) :
    h2cSlot q.pdu ∈ q.waiting ∧ (doneRecvLive c env q).1 = false ∧
      (doneRecvLive c env q).2.fatal = q.fatal ∧
      Synced c ms asked debts (doneRecvLive c env q).2 (data ++ msgWire c ms) ∧
      Handles env (.h2c pdu data :: ms) ms debts debts q (doneRecvLive c env q).2 [] [] [] := by
  have hdec : NvmeTcpXferPdu.decode q.pdu = pdu := by
    rw [hpdu, Msg.front, List.append_assoc]
    exact NvmeTcpXferPdu.decode_encode_append pdu _
  have ht : (NvmeTcpHdr.decode q.pdu).type = nvmeTcpH2cData := by
    rw [hpdu, Msg.decode_front]
    exact (h.msgs _ List.mem_cons_self).1.h2c_type
  obtain ⟨cmd, hmem, hfirst, hsecond⟩ := h.answers pdu data List.mem_cons_self
  have hslot : h2cSlot q.pdu = .slot pdu.ttag.toNat := by rw [h2cSlot, hdec]
  have hwait : CmdId.slot pdu.ttag.toNat ∈ q.waiting := by
    refine h.waits.mem_iff.2 ?_
    simp [answered, Msg.slot?]
  have hmid : (asked ++ answered (.h2c pdu data :: ms)).Perm
      (.slot pdu.ttag.toNat :: (asked ++ answered ms)) :=
    List.perm_middle
  generalize hi : CmdId.slot pdu.ttag.toNat = i at hmem hslot hwait hmid
  have hidle : q.cmd = none := hk.recv.idle hs
  have hfresh : (q.cmds i).rbytesDone = 0 := h.fresh _ hmem (by simp [hidle])
  have hrun : doneRecvLive c env q = (false, letIn q) := by
    rw [doneRecvLive, if_pos ht]
    rcases handleH2c_cases c q with ⟨hne, -⟩ | ⟨-, heq⟩
    · refine absurd ?_ hne
      rw [hslot, hdec, hfirst, hfresh]
      rfl
    · exact heq
  have hlet : letIn q =
      { q with cmd := some i, rcvState := .data, waiting := q.waiting.erase i }.modifyCmd i
        (startH2c data.length) := by
    rw [letIn, hslot, hdec, hsecond]
  have hcmds : (letIn q).cmds i = startH2c data.length
    (q.cmds i) := by rw [hlet, modifyCmd_cmds_self]
  have hbytes : (startH2c data.length (q.cmds i)).rbytesDone = 0 := hfresh
  have hcount : (startH2c data.length (q.cmds i)).recvMsg.count = data.length := rfl
  have hadj : Adjacent (startH2c data.length (q.cmds i)).rbytesDone
    (startH2c data.length (q.cmds i)).recvMsg.iov
      (startH2c data.length (q.cmds i)).recvMsg.count := by
    obtain ⟨id, hst⟩ := (h.owes _ hmem).stored
    have hsg : (startH2c data.length (q.cmds i)).req.sg = _ := hst
    refine mapPduIovec_adjacent hsg ?_ (by rw [hbytes]; rfl)
    simp [startH2c, nvmetTcpMapPduIovec, hfresh]
  have hnull : (startH2c data.length (q.cmds i)).recvMsg.oops = false := by
    obtain ⟨id, hst⟩ := (h.owes _ hmem).stored
    exact mapPduIovec_oops hst (by simp [hfresh]) (by dsimp only; rw [hfresh]; rfl)
      (h.owes _ hmem).iov
  refine ⟨hslot ▸ hwait, by rw [hrun], by rw [hrun]; rfl, ?_, ?_⟩
  · rw [hrun]
    refine ⟨⟨?_, fun m' hm => h.msgs m' (List.mem_cons_of_mem _ hm), ?_, ?_⟩, ?_⟩
    · rw [hlet]
      exact h.toDebtsOk.h2c hk hs hmem hwait data.length
    · rw [hlet]
      exact List.Perm.cons_inv ((List.perm_cons_erase hwait).symm.trans (h.waits.trans hmid))
    · intro pdu' data' hin
      exact h.answers pdu' data' (List.mem_cons_of_mem _ hin)
    · have hread : Reading c ms debts (letIn q) _ :=
        .body i (cmd, data) hmem rfl (by rw [hlet]; rfl)
        (by rw [hcmds, hbytes, hcount, Nat.zero_add]) (by rw [hcmds]; exact hadj)
          (by rw [hcmds]; exact hnull)
      rw [hcmds, hbytes] at hread
      exact hread
  · rw [hrun]
    refine ⟨List.subset_cons_self _ _, fun d hd _ => hd,
      fun d hd haw => .inl ⟨hd, by simp [hidle], ?_⟩, rfl, (List.append_nil _).symm,
      (List.append_nil _).symm, by simp, by simp⟩
    have hne : i ≠ d.1 := fun he => haw.1 (by rw [hlet, he]; rfl)
    have hcons : answered (.h2c pdu data :: ms) = i :: answered ms := by
      rw [← hi]
      rfl
    rw [hcons, List.mem_cons, not_or]
    exact ⟨hne.symm, haw.2⟩

theorem Owes.read {job : Job} {cmd : NvmetTcpCmd} (h : Owes job cmd)
    (hcount : cmd.rbytesDone + cmd.recvMsg.count = job.2.length)
    (hadj : Adjacent cmd.rbytesDone cmd.recvMsg.iov cmd.recvMsg.count)
    (hpre : b <+: job.2.drop cmd.rbytesDone) (hlt : b.length < cmd.recvMsg.count) :
    Owes job (recvInto b cmd) ∧
      Adjacent (recvInto b cmd).rbytesDone (recvInto b cmd).recvMsg.iov
      (recvInto b cmd).recvMsg.count := by
  obtain ⟨id, hst⟩ := h.stored
  obtain ⟨hst', hadj'⟩ := hst.read (by simp) hadj hlt.le hcount.le hpre
  refine ⟨⟨h.same, h.write, h.status, h.len, ?_, h.flag, h.iov, id, hst'⟩, hadj'⟩
  change cmd.rbytesDone + b.length < _
  omega

theorem Owes.finish {job : Job} {cmd : NvmetTcpCmd} (h : Owes job cmd)
    (hcount : cmd.rbytesDone + cmd.recvMsg.count = job.2.length)
    (hadj : Adjacent cmd.rbytesDone cmd.recvMsg.iov cmd.recvMsg.count)
    (hpre : b <+: job.2.drop cmd.rbytesDone) (hend : b.length = cmd.recvMsg.count) :
    (recvInto b cmd).sgData = job.2 ∧ (recvInto b cmd).rbytesDone = job.2.length := by
  obtain ⟨id, hst⟩ := h.stored
  obtain ⟨hst', -⟩ := hst.read (by simp) hadj hend.le hcount.le hpre
  have hall : (recvInto b cmd).rbytesDone = job.2.length := by
    change cmd.rbytesDone + b.length = _
    omega
  refine ⟨?_, hall⟩
  rw [Stored, hall] at hst'
  rw [NvmetTcpCmd.sgData, hst']
  simp

theorem Kept.ne_of_waiting (hk : Kept c L₀ q) (hs : q.rcvState = .data) (hi : q.cmd = some i)
    (hflag : (q.cmds i).initFailed = false) {j : CmdId} (hj : j ∈ q.waiting) : j ≠ i := by
  rintro rfl
  have hcnt := List.nodup_iff_count_le_one.1 (List.nodup_append.1 hk.nodup).2.1 j
  have hone := List.one_le_count_iff.2 hj
  have hrecv : receiving q = [j] := by simp [receiving, hs, hi, hflag]
  simp only [held, hrecv, List.count_append, List.count_singleton_self] at hcnt
  omega

theorem Synced.data (env : Env) {job : Job} (hk : Kept c L₀ q) (h : Matched c ms asked debts q)
    (hdd : c.dataDigest = false) (hd : (i, job) ∈ debts) (hs : q.rcvState = .data)
    (hi : q.cmd = some i) (hcount : (q.cmds i).rbytesDone + (q.cmds i).recvMsg.count = job.2.length)
    (hadj : Adjacent (q.cmds i).rbytesDone (q.cmds i).recvMsg.iov (q.cmds i).recvMsg.count)
    (hnull : (q.cmds i).recvMsg.oops = false)
    (hb : b <+: job.2.drop (q.cmds i).rbytesDone ++ msgWire c ms)
    (hle : b.length ≤ (q.cmds i).recvMsg.count) :
    (nvmetTcpTryRecv c env b q).fatal = q.fatal ∧ ∃ debts' ran,
      Synced c ms asked debts' (nvmetTcpTryRecv c env b q)
        ((job.2.drop (q.cmds i).rbytesDone ++ msgWire c ms).drop b.length) ∧
      Handles env ms ms debts debts' q (nvmetTcpTryRecv c env b q) [] ran [] := by
  have ho := h.owes _ hd
  have hlen : (job.2.drop (q.cmds i).rbytesDone).length = (q.cmds i).recvMsg.count := by
    rw [List.length_drop]
    omega
  have hpre : b <+: job.2.drop (q.cmds i).rbytesDone :=
    List.prefix_of_prefix_length_le hb (List.prefix_append _ _) (by omega)
  have hdrop : (job.2.drop (q.cmds i).rbytesDone ++ msgWire c ms).drop b.length =
      job.2.drop ((q.cmds i).rbytesDone + b.length) ++ msgWire c ms := by
    rw [List.drop_append_of_le_length (by omega), List.drop_drop]
  have hrun : nvmetTcpTryRecv c env b q = nvmetTcpTryRecvData c i b q := by
    unfold nvmetTcpTryRecv
    rw [hs, hi]
  have hcmd : (q.modifyCmd i (recvInto b)).cmds i = recvInto b (q.cmds i) :=
    modifyCmd_cmds_self _ _ _
  have hcount' : (recvInto b (q.cmds i)).recvMsg.count = (q.cmds i).recvMsg.count - b.length := rfl
  rw [hrun, nvmetTcpTryRecvData, hcmd, hdrop]
  rcases Nat.lt_or_ge b.length (q.cmds i).recvMsg.count with hlt | hge
  · obtain ⟨ho', hadj'⟩ := ho.read hcount hadj hpre hlt
    rw [if_neg (by rw [hcount']; omega)]
    refine ⟨rfl, debts, [], ⟨⟨h.toDebtsOk.body hd hi ho' rfl, h.msgs, h.waits, h.answers⟩, ?_⟩,
      List.Subset.refl _, fun _ hd _ => hd, fun _ hd haw => .inl ⟨hd, haw⟩, rfl,
      (List.append_nil _).symm, (List.append_nil _).symm, by simp,
      by simp⟩
    have hread : Reading c ms debts (q.modifyCmd i (recvInto b)) _ :=
      .body i job hd hs hi ?_ (by rw [hcmd]; exact hadj')
      (by rw [hcmd]; exact hnull)
    · rw [hcmd] at hread
      exact hread
    · rw [hcmd, hcount']
      change (q.cmds i).rbytesDone + b.length + _ = _
      omega
  · have hend : b.length = (q.cmds i).recvMsg.count := by omega
    obtain ⟨hdata, hbytes⟩ := ho.finish hcount hadj hpre hend
    have hcmds : ((q.modifyCmd i (recvInto b)).modifyCmd i nvmetTcpUnmapPduIovec).cmds i =
        nvmetTcpUnmapPduIovec (recvInto b (q.cmds i)) := by
      rw [modifyCmd_cmds_self, modifyCmd_cmds_self]
    have hdone : recvDataDone c i ((q.modifyCmd i (recvInto b)).modifyCmd i nvmetTcpUnmapPduIovec) =
        nvmetPrepareReceivePdu (nvmetReqExecute i
          (q.modifyCmd i fun cmd => nvmetTcpUnmapPduIovec (recvInto b cmd))) := by
      unfold recvDataDone
      dsimp only
      rw [hcmds, if_pos ⟨ho.flag, hbytes.trans ho.len.symm⟩, if_neg (by simp [hdd]),
        modifyCmd_modifyCmd]
    rw [if_pos (by rw [hcount']; omega), hdone]
    have hexec : (nvmetPrepareReceivePdu (nvmetReqExecute i
        (q.modifyCmd i fun cmd => nvmetTcpUnmapPduIovec (recvInto b cmd)))).executed = q.executed ++
          [job] := by
      have hjob : ((q.modifyCmd i fun cmd => nvmetTcpUnmapPduIovec (recvInto b cmd)).cmds i).req.cmd
        = job.1 ∧
          ((q.modifyCmd i fun cmd => nvmetTcpUnmapPduIovec (recvInto b cmd)).cmds i).sgData =
            job.2 := by
        rw [modifyCmd_cmds_self]
        exact ⟨ho.same, hdata⟩
      change q.executed ++ [(_, _)] = _
      rw [hjob.1, hjob.2]
    have hleft : ∀ d ∈ debts.erase (i, job), d ∈ debts ∧ d.1 ≠ i := by
      intro d hd'
      have hmem := List.mem_of_mem_erase hd'
      refine ⟨hmem, fun he => ?_⟩
      obtain rfl : d = (i, job) := List.inj_on_of_nodup_map h.ids hmem hd he
      exact (List.Nodup.not_mem_erase h.ids.of_map) hd'
    refine ⟨rfl, debts.erase (i, job), [job], ⟨⟨?_, h.msgs, h.waits, ?_⟩, ?_⟩, List.Subset.refl _,
      ?_, ?_, rfl, (List.append_nil _).symm, hexec, ?_, by simp⟩
    · refine h.toDebtsOk.settle hk hd hs hi ?_
      have hlen' : (q.cmds i).req.transferLen = job.2.length := ho.len
      have hbytes' : (nvmetTcpUnmapPduIovec (recvInto b (q.cmds i))).rbytesDone = job.2.length :=
        hbytes
      have htl : (nvmetTcpUnmapPduIovec (recvInto b (q.cmds i))).req.transferLen =
        (q.cmds i).req.transferLen := rfl
      simp [NvmetTcpCmd.hasDataIn, hbytes', htl, hlen']
    · intro pdu data hin
      obtain ⟨cmd, hmem, hrest⟩ := h.answers pdu data hin
      refine ⟨cmd, (List.mem_erase_of_ne fun he => ?_).2 hmem, hrest⟩
      refine hk.ne_of_waiting hs hi ho.flag (h.waits.mem_iff.2 ?_) (congrArg Prod.fst he)
      exact List.mem_append_right _ (List.mem_filterMap.2 ⟨_, hin, rfl⟩)
    · have hnil : job.2.drop ((q.cmds i).rbytesDone + b.length) = [] :=
        List.drop_eq_nil_of_le (by omega)
      rw [hnil]
      exact .front 0 (atFront_prepare _ _)
    · intro d hd' hne
      exact (List.mem_erase_of_ne fun he => hne (by rw [he, hi])).2 hd'
    · intro d hd' haw
      obtain ⟨hmem, hne⟩ := hleft d hd'
      exact .inl ⟨hmem, by rw [hi]; exact fun he => hne (Option.some_inj.1 he).symm, haw.2⟩
    · simpa using (List.perm_cons_erase hd).map Prod.snd

end Step

section Run

variable {env : Env} {b : List Byte}

/-- One read: the target stays in step, and what it takes on is accounted for. -/
theorem Synced.recv (hk : Kept c L₀ q) (h : Synced c ms asked debts q wire)
    (hdd : c.dataDigest = false) (hb : b <+: wire) (hle : b.length ≤ recvWants q)
    (hok : ∀ pdu ∈ headerRead q b, (NvmeTcpHdr.decode pdu).type ≠ nvmeTcpH2cData →
      TakenUp c q env pdu) :
    FairRead q env b ∧ (nvmetTcpTryRecv c env b q).fatal = q.fatal ∧
      ∃ ms' debts' got ran refused, Synced c ms' asked debts' (nvmetTcpTryRecv c env b q)
    (wire.drop b.length) ∧
        Handles env ms ms' debts debts' q (nvmetTcpTryRecv c env b q) got ran refused := by
  have hnot : headerRead q b = none → FairRead q env b := by
    intro hnone pdu hin
    rw [hnone] at hin
    cases hin
  obtain ⟨hm, hread⟩ := h
  cases hread with
  | body i job hd hs hi hcount hadj hnull =>
    rw [recvWants, hs, hi] at hle
    obtain ⟨hfatal, debts', ran, hsync, hand⟩ :=
      Synced.data env hk hm hdd hd hs hi hcount hadj hnull hb hle
    refine ⟨hnot (if_neg fun hcond => ?_), hfatal, ms, debts', [], ran, [], hsync, hand⟩
    rw [hs] at hcond
    cases hcond.1
  | front k hat =>
    rw [recvWants, hat.state.1] at hle
    rcases hat.read env (fun m hin => (hm.msgs m hin).1) hdd hb hle with
      ⟨pdu, o, n, hrun, hnone, hat'⟩ | ⟨m, rest, rfl, hfull, ⟨r, hpdu⟩, hhead, hrun⟩
    · refine ⟨hnot hnone, by rw [hrun], ms, debts, [], [], [], ?_, ?_⟩
      · rw [hrun, List.drop_drop]
        exact ⟨⟨⟨hm.ids, hm.slots, hm.owes, hm.fresh, hm.due, hm.all, hm.asks, hm.free⟩, hm.msgs,
          hm.waits, hm.answers⟩, .front _ hat'⟩
      · rw [hrun]
        exact ⟨List.Subset.refl _, fun _ hd _ => hd, fun _ hd haw => .inl ⟨hd, haw⟩, rfl,
          (List.append_nil _).symm,
          (List.append_nil _).symm, by simp, by simp⟩
    · have hk₁ := hk.header b
      have hm₁ := hm.readHeader b
      have hs₁ : (readHeader b q).rcvState = .pdu := hat.state.1
      rw [drop_front hfull]
      cases m with
      | capsule pdu data inl =>
        have ht : (NvmeTcpHdr.decode (readHeader b q).pdu).type ≠ nvmeTcpH2cData := by
          rw [hpdu, Msg.decode_front]
          exact (hm.msgs _ List.mem_cons_self).1.capsule_type
        have htaken := hok _ (by rw [hhead]; rfl) ht
        obtain ⟨hret, hfatal, debts', ran, refused, hsync, hand⟩ := hm₁.capsule env hk₁ hs₁ hpdu
          ⟨htaken.slot, htaken.alloc, htaken.accept, htaken.reject, htaken.skips⟩
        rw [hret] at hrun
        refine ⟨?_, by rw [hrun]; exact hfatal, rest, debts', [(pdu.cmd, data)], ran, refused, ?_,
          ?_⟩
        · intro pdu' hin
          rw [hhead] at hin
          obtain rfl := Option.some.inj hin
          unfold FairHeader
          rw [if_neg ht]
          exact ⟨by rw [htaken.alloc]; decide, htaken.reject⟩
        · rw [hrun]
          exact hsync
        · rw [hrun]
          exact ⟨hand.rest, hand.stays, hand.awaits, hand.jobs, hand.received, hand.executed,
            hand.kept, hand.refused⟩
      | h2c pdu data =>
        obtain ⟨hwait, hret, hfatal, hsync, hand⟩ := hm₁.answer env hk₁ hs₁ hpdu
        rw [hret] at hrun
        refine ⟨?_, by rw [hrun]; exact hfatal, rest, debts, [], [], [], ?_, ?_⟩
        · intro pdu' hin
          rw [hhead] at hin
          obtain rfl := Option.some.inj hin
          unfold FairHeader
          rw [if_pos (by rw [hpdu, Msg.decode_front]; exact (hm.msgs _ List.mem_cons_self).1.h2c_type)]
          exact hwait
        · rw [hrun]
          exact hsync
        · rw [hrun]
          exact ⟨hand.rest, hand.stays, hand.awaits, hand.jobs, hand.received, hand.executed,
            hand.kept, hand.refused⟩

theorem Synced.oops (h : Synced c ms asked debts q wire) : q.oops = false := by
  cases h.reading with
  | front k hat => simp [NvmetTcpQueue.oops, hat.state.1]
  | body i job hd hs hi hcount hadj hnull => simp [NvmetTcpQueue.oops, hs, hi, hnull]

/-- A command whose R2T has not been answered waits for data that is not on its way. -/
theorem Synced.awaits (hk : Kept c L₀ q) (h : Synced c ms asked debts q wire) (hi : i ∈ asked) :
    Awaits ms q i := by
  have hmem : i ∈ q.waiting := h.waits.mem_iff.2 (List.mem_append_left _ hi)
  constructor
  · intro hcmd
    cases h.reading with
    | front k hat => exact absurd (hcmd.symm.trans (hk.recv.idle hat.state.1)) (by simp)
    | body j job hd hs hj =>
      obtain rfl : j = i := Option.some_inj.1 (hj.symm.trans hcmd)
      exact hk.ne_of_waiting hs hj (h.owes _ hd).flag hmem rfl
  · have hnd : q.waiting.Nodup := by
      have := (List.nodup_append.1 hk.nodup).2.1
      simp only [held, List.nodup_append] at this
      grind
    have := (h.waits.nodup_iff.1 hnd)
    intro hans
    exact (List.nodup_append.1 this).2.2 i hi i hans rfl

theorem Synced.jobs_nil (h : Synced c ms asked debts q []) : jobs ms = [] := by
  obtain ⟨hm, hread⟩ := h
  generalize hw : ([] : List Byte) = w at hread
  cases hread with
  | front k hat =>
    cases ms with
    | nil => rfl
    | cons m ms =>
      have hle : (msgWire c (m :: ms)).length ≤ k := List.drop_eq_nil_iff.1 hw.symm
      have hlen : (m.front c).length ≤ (msgWire c (m :: ms)).length := by simp [msgWire_cons]
      have h24 : 24 ≤ (m.front c).length := (m.head_length_ge).trans (by simp [Msg.front])
      have := hat.inside.2 (by omega)
      simp only [frontLen] at this
      omega
  | body i job hd =>
    have hmore : (q.cmds i).rbytesDone < job.2.length := (hm.owes _ hd).more
    have hnil := (List.append_eq_nil_iff.1 hw.symm).1
    have := List.drop_eq_nil_iff.1 hnil
    omega

theorem Reading.congr (h : Reading c ms debts q wire)
    (hr : q'.rcvState = q.rcvState ∧ q'.offset = q.offset ∧ q'.left = q.left ∧ q'.pdu = q.pdu)
    (hc : q'.cmd = q.cmd) (hd : ∀ d ∈ debts, (q'.cmds d.1).rbytesDone = (q.cmds d.1).rbytesDone ∧
      (q'.cmds d.1).recvMsg = (q.cmds d.1).recvMsg) : Reading c ms debts q' wire := by
  cases h with
  | front k hat => exact .front k (hat.congr hr)
  | body i job hmem hs hi hcount hadj hnull =>
    obtain ⟨hb, hm⟩ := hd _ hmem
    rw [← hb] at hcount hadj ⊢
    rw [← hm] at hcount hadj hnull
    exact .body i job hmem (hr.1.trans hs) (hc.trans hi) hcount hadj hnull

theorem Synced.replies (h : Synced c ms asked debts q wire) (rs : List SockReply) :
    Synced c ms asked debts { q with replies := rs } wire :=
  ⟨⟨⟨h.ids, h.slots, h.owes, h.fresh, h.due, h.all, h.asks, h.free⟩, h.msgs, h.waits, h.answers⟩,
    h.reading.congr ⟨rfl, rfl, rfl, rfl⟩ rfl fun _ _ => ⟨rfl, rfl⟩⟩

theorem Synced.turn (h : Synced c ms asked debts q wire) (last nospace : Bool) :
    ∃ new, (trySendTurn c last nospace q).2.waiting = q.waiting ++ new ∧
      Synced c ms (asked ++ new) debts (trySendTurn c last nospace q).2 wire ∧
      SendQuiet q (trySendTurn c last nospace q).2 := by
  obtain ⟨hd, hq, new, hw⟩ := h.toDebtsOk.turn last nospace
  refine ⟨new, hw.symm, ⟨⟨hd, h.msgs, ?_, h.answers⟩, ?_⟩, hq⟩
  · rw [← hw, List.append_assoc]
    refine (h.waits.append_right new).trans ?_
    rw [List.append_assoc]
    exact List.perm_append_comm.append_left asked
  · exact h.reading.congr hq.rcv hq.cmd fun d _ => ⟨(hq.cmds d.1).2.1, (hq.cmds d.1).2.2.1⟩

theorem Synced.completes (hk : Kept c L₀ q) (h : Synced c ms asked debts q wire)
    {cqe : NvmeCompletion} {data : List Byte} (hc : backendCompletes c i cqe data q = some q') :
    Synced c ms asked debts q' wire := by
  have hd := h.toDebtsOk.completes hk hc
  obtain ⟨hi, rfl⟩ := backendCompletes_some hc
  refine ⟨⟨hd, h.msgs, h.waits, h.answers⟩,
    h.reading.congr ⟨rfl, rfl, rfl, rfl⟩ rfl fun d hmem => ?_⟩
  have hne : d.1 ≠ i := fun he => h.toDebtsOk.not_executing hk hi (he ▸ List.mem_map_of_mem hmem)
  have hcmds : (nvmetTcpQueueResponse c i
      { q.modifyCmd i (completed cqe data) with executing := q.executing.erase i }).cmds d.1 =
        q.cmds d.1 :=
    modifyCmd_cmds_of_ne q i (completed cqe data) hne
  rw [hcmds]
  exact ⟨rfl, rfl⟩

theorem Reading.append (h : Reading c ms debts q wire) (ms' : List Msg) :
    Reading c (ms ++ ms') debts q (wire ++ msgWire c ms') := by
  cases h with
  | front k hat =>
    have hread : Reading c (ms ++ ms') debts q _ := .front k (hat.append ms')
    rw [msgWire_append, List.drop_append_of_le_length hat.inside.1] at hread
    exact hread
  | body i job hmem hs hi hcount hadj hnull =>
    rw [List.append_assoc, ← msgWire_append]
    exact .body i job hmem hs hi hcount hadj hnull

theorem Synced.command (h : Synced c ms asked debts q wire) {pdu : NvmeTcpCmdPdu} {data : List Byte}
    {inl : Bool} (hm : (Msg.capsule pdu data inl).Framed c ∧ (Msg.capsule pdu data inl).Fits c) :
    Synced c (ms ++ [.capsule pdu data inl]) asked debts q
      (wire ++ msgWire c [.capsule pdu data inl]) := by
  refine ⟨⟨h.toDebtsOk, ?_, ?_, ?_⟩, h.reading.append _⟩
  · intro m hin
    rcases List.mem_append.1 hin with hin | hin
    · exact h.msgs m hin
    · rw [List.mem_singleton.1 hin]
      exact hm
  · have hans : answered (ms ++ [.capsule pdu data inl]) = answered ms := by
      rw [answered, List.filterMap_append]
      exact List.append_nil _
    rw [hans]
    exact h.waits
  · intro pdu' data' hin
    rcases List.mem_append.1 hin with hin | hin
    · exact h.answers pdu' data' hin
    · cases List.mem_singleton.1 hin

theorem Synced.reply {pdu : NvmeTcpDataPdu} {data : List Byte} {cmd : NvmeCommand}
    {asked' : List CmdId} (h : Synced c ms asked debts q wire)
    (hasked : asked.Perm (.slot pdu.ttag.toNat :: asked'))
    (hmem : (CmdId.slot pdu.ttag.toNat, (cmd, data)) ∈ debts)
    (hpdu : pdu.first = 0 ∧ pdu.second.toNat = data.length) (hm : (Msg.h2c pdu data).Framed c) :
    Synced c (ms ++ [.h2c pdu data]) asked' debts q (wire ++ msgWire c [.h2c pdu data]) := by
  refine ⟨⟨h.toDebtsOk, ?_, ?_, ?_⟩, h.reading.append _⟩
  · intro m hin
    rcases List.mem_append.1 hin with hin | hin
    · exact h.msgs m hin
    · rw [List.mem_singleton.1 hin]
      exact ⟨hm, trivial⟩
  · have hans : answered (ms ++ [.h2c pdu data]) = answered ms ++ [.slot pdu.ttag.toNat] := by
      simp [answered, Msg.slot?]
    rw [hans]
    refine h.waits.trans ((hasked.append_right _).trans ?_)
    rw [← List.append_assoc]
    exact (List.perm_append_singleton _ _).symm
  · intro pdu' data' hin
    rcases List.mem_append.1 hin with hin | hin
    · exact h.answers pdu' data' hin
    · cases List.mem_singleton.1 hin
      exact ⟨cmd, hmem, hpdu⟩

end Run

end BlkSwitch.Target
