import BlkSwitch.Sanity.TargetPipe

/-! What the callers of `nvmet_tcp_queue_response` put into an aggregating target queue comes out
in their order, each command's PDUs in one piece, however the caravan cuts them up and whenever
the socket is full. -/

namespace BlkSwitch.Target

open NvmetTcpQueue Pipes

/-- An I/O queue whose sends go through the caravan, with a response after every data PDU and no
data digest. -/
structure Aggregating (c : Config) : Prop where
  aggr : c.nvmetTcpAggr = true
  io : i10TargetIsAdminQueue c = false
  noDigest : c.dataDigest = false
  sqhd : c.sqhdDisabled = false

theorem Aggregating.aggregates {c : Config} (h : Aggregating c) : aggregates c = true := by
  simp [Target.aggregates, h.aggr, h.io]

section Runs

variable {c : Config} {s s' : TargetState}

def stateView (c : Config) : View TargetState Byte where
  msgs s := s.q.queued
  out s := s.q.sent
  held s := inHand c s.q

theorem respStep_ok (hagg : Aggregating c) (h : RespOk c s) {e : RespEvent}
    (hs : respStep c s e = some s') :
    RespOk c s' ∧ ((∃ m, (stateView c).Submits m s s') ∨ (stateView c).Emits s s') := by
  cases e with
  | queueResponse i cmd =>
    simp only [respStep] at hs
    split_ifs at hs with hg
    cases hs
    obtain ⟨hok, hheld⟩ := queued_ok h.send hg.1 hg.2
    refine ⟨⟨hok, h.idle⟩, .inl ⟨responsePdus c i cmd, ?_, rfl, ?_⟩⟩
    · simp [stateView, nvmetTcpQueueResponse, modifyCmd]
    · rw [← owedPdus_eq hagg.sqhd]
      exact hheld
  | sendStart budget =>
    obtain ⟨hok, hq⟩ := h.sendStart hs
    refine ⟨hok, .inr (.of_eq ?_ ?_ ?_)⟩ <;> simp only [stateView, hq]
  | sendTurn nospace =>
    obtain ⟨hok, hem⟩ := h.sendTurn hagg.noDigest (fun _ => by simp) hs
    exact ⟨hok, .inr hem⟩

theorem SendOk.sndRest_eq {q : NvmetTcpQueue} (hagg : Aggregating c) (h : SendOk c q) :
    sndOwes c q = sndRest c q := by
  cases hsnd : q.sndCmd with
  | none => rw [sndOwes_none hsnd, sndRest_none hsnd]
  | some i => rw [sndOwes_some hsnd, sndRest_some hsnd,
    owes_eq_rest hagg.sqhd (h.snd i hsnd) hagg.aggregates]

/-- Whatever the calls and the socket do, the bytes sent, those in the caravan, the rest of the
worker's command and the PDUs of the queued ones are the PDUs of all calls in their order. -/
theorem responses_in_order (hagg : Aggregating c) {es : List RespEvent}
    (h : (respSystem c).Run es s) :
    s.q.sent ++ (s.q.caravanBytes ++ (sndRest c s.q ++
        (s.q.respSendList ++ s.q.respList.reverse).flatMap fun i => responsePdus c i (s.q.cmds i)))
        =
      s.q.queued.flatten ∧
    s.q.sendListLen = s.q.respSendList.length ∧ (s.pc = .idle false → s.q.caravanIovs = []) := by
  have hstep : ∀ s e s', RespOk c s → True → (respSystem c).step s e = some s' →
      RespOk c s' ∧ ((∃ m, (stateView c).Submits m s s') ∨ (stateView c).Emits s s') :=
    fun s e s' hI _ hs => respStep_ok hagg hI hs
  obtain ⟨p, -, hp⟩ := View.refines (v := stateView c) (respOk_init c) ⟨rfl, rfl, rfl⟩ hstep h
  have hok := h.invariant (respOk_init c) fun s e s' hI hok hs => (hstep s e s' hI hok hs).1
  refine ⟨?_, hok.send.listLen, hok.idle⟩
  have hstream := hp.stream
  simp only [stateView, inHand, hok.send.sndRest_eq hagg, owedPdus_eq hagg.sqhd] at hstream
  exact hstream

end Runs

section Sample

def sampleTarget : Config where
  qid := 1
  prioClass := 0
  nrCmds := 2
  nvmetTcpAggr := true
  sqhdDisabled := false
  hdrDigest := true
  dataDigest := false
  inlineDataSize := 4096
  crc := fun b => [UInt8.ofNat b.length, 0, 0, 0]
  crc_length := fun _ => rfl
  reqInit := fun r =>
    { r with
      sg := none
      transferLen := 0
      cqe := { r.cqe with status := 0, sqHead := 0 } }
  reqInit_reset := fun _ => ⟨rfl, rfl, rfl, rfl⟩

theorem sampleTarget_aggregating : Aggregating sampleTarget := ⟨rfl, rfl, rfl, rfl⟩

def sampleReadCmd : NvmetTcpCmd :=
  { zeroCmd with
    req :=
      { zeroCmd.req with
        cmd := { zeroCmd.req.cmd with opcode := 2 }
        sg := some ⟨0, [1, 2, 3]⟩
        transferLen := 3 }
    curSg := some 0 }

/-- Two responses, a first call that finds the socket full, and a second one. -/
def sampleResponses : List RespEvent :=
  [.queueResponse (.slot 0) sampleReadCmd, .sendStart 1, .sendTurn true,
    .queueResponse (.slot 1) zeroCmd, .sendStart 2, .sendTurn false, .sendTurn false]

theorem responses_in_order_read :
    ∃ s, (respSystem sampleTarget).Run sampleResponses s ∧ s.q.sent.length = 3 * 28 + 3 ∧
      s.pc = .idle false ∧ (s.q.sent ++ (s.q.caravanBytes ++ (sndRest sampleTarget s.q ++
          (s.q.respSendList ++ s.q.respList.reverse).flatMap fun i => responsePdus sampleTarget i
          (s.q.cmds i))) =
        s.q.queued.flatten ∧
      s.q.sendListLen = s.q.respSendList.length ∧ (s.pc = .idle false → s.q.caravanIovs = [])) := by
  obtain ⟨s, hrun, hsent, hpc⟩ : ∃ s, (respSystem sampleTarget).Run sampleResponses s ∧
      s.q.sent.length = 3 * 28 + 3 ∧ s.pc = .idle false :=
    Runs.System.exists_runIn_of_execIn
      (fun s : TargetState => s.q.sent.length = 3 * 28 + 3 ∧ s.pc = .idle false)
      (by decide +kernel)
  exact ⟨s, hrun, hsent, hpc, responses_in_order sampleTarget_aggregating hrun⟩

end Sample

end BlkSwitch.Target
