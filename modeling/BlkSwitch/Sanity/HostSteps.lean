import BlkSwitch.Sanity.HostIter
import BlkSwitch.Spec.HostSend

/-! The caravan side of `nvme_tcp_try_send`, cut into the single things it can do to the
queue: find the caravan full, add a header, add a chunk of data. -/

namespace BlkSwitch.Host

open Bytes Relation

/-- What holds of a request between two PDUs. -/
structure ReqGood (c : Config) (r : NvmeTcpRequest) : Prop where
  buf : r.pdu.length = 72 + nvmeTcpHdgstLen c
  len : r.dataLen = r.rq.dataLen
  sent : r.dataSent ≤ r.dataLen
  first : r.dataSent = 0 → r.currBio = r.rq.bio
  more : 0 < r.dataSent → r.dataSent < r.dataLen → IterGood r

/-- In the middle of the data of a PDU. -/
structure InData (r : NvmeTcpRequest) : Prop where
  iter : IterGood r
  more : r.pduSent < r.pduLen
  room : r.dataSent + (r.pduLen - r.pduSent) ≤ r.dataLen

/-- A request that waits to be sent, or of which a part has been. A data digest never waits:
it leaves in the call that adds the last chunk. -/
def Ready (c : Config) (r : NvmeTcpRequest) : Prop :=
  ReqGood c r ∧
    match r.state with
    | .cmdPdu => r.offset = 0 ∧ r.pduSent = 0 ∧ r.dataSent = 0 ∧
        (r.hasInlineData c = true → r.pduLen = r.dataLen)
    | .h2cPdu => r.offset = 0 ∧ r.pduSent = 0 ∧ 0 < r.pduLen ∧ r.dataSent + r.pduLen ≤ r.dataLen
    | .data => InData r
    | .ddgst => False

def curKvec (r : NvmeTcpRequest) : Kvec := ⟨.page r.reqCurBvec r.iter.iovOffset, r.reqCurLength⟩

def hdrKvec (c : Config) (t size : ℕ) : Kvec := ⟨.pdu t 0, size + nvmeTcpHdgstLen c⟩

namespace SendQueue

variable (c : Config) (t : ℕ) (q : SendQueue)

def mark : SendQueue := { q with sendNow := true }

def markIf (b : Bool) : SendQueue := { q with sendNow := q.sendNow || b }

/-- The header buffer just before the header is handed over. -/
def digestHdr (size : ℕ) : SendQueue :=
  if c.hdrDigest then q.modifyReq t (nvmeTcpHdgst c size) else q

def putHdr (size : ℕ) : SendQueue := (q.digestHdr c t size).append (hdrKvec c t size)

def putCmd : SendQueue :=
  let r := q.reqs t
  let q := (q.putHdr c t 72).markIf (i10HostIsNodelayPath r)
  if r.hasInlineData c then
    (startData c q).modifyReq t fun r => { r with state := .data, iter := r.initIter }
  else nvmeTcpDoneSendReq q

def putH2c : SendQueue :=
  (startData c (q.putHdr c t 24)).modifyReq t fun r =>
    { r with state := .data, iter := if r.dataSent = 0 then r.initIter else r.iter }

def putChunk : SendQueue :=
  let k := curKvec (q.reqs t)
  dataSentUpdate c t (k.bytes q.reqs) k.len (q.append k)

def finish : SendQueue :=
  nvmeTcpDoneSendReq
    (if c.dataDigest then { dataDone c t q with sent := q.sent ++ c.crc q.sndHash } else q)

end SendQueue

open SendQueue

/-- The single things a call does with request `t`, as long as it is not through. -/
inductive SendStep (c : Config) (aggr t : ℕ) : SendQueue → SendQueue → Prop
  | fullHdr {q} (size : ℕ) (hreq : q.request = some t)
      (hst : size = 72 ∧ (q.reqs t).state = .cmdPdu ∨ size = 24 ∧ (q.reqs t).state = .h2cPdu)
      (hf : q.i10HostIsCaravanFull aggr = true) : SendStep c aggr t q (q.digestHdr c t size).mark
  | fullData {q} (hreq : q.request = some t) (hst : (q.reqs t).state = .data)
      (hf : q.i10HostIsCaravanFull aggr = true) : SendStep c aggr t q q.mark
  | cmd {q} (hreq : q.request = some t) (hst : (q.reqs t).state = .cmdPdu)
      (hf : q.i10HostIsCaravanFull aggr = false) : SendStep c aggr t q (q.putCmd c t)
  | h2c {q} (hreq : q.request = some t) (hst : (q.reqs t).state = .h2cPdu)
      (hf : q.i10HostIsCaravanFull aggr = false) : SendStep c aggr t q (q.putH2c c t)
  | chunk {q} (hreq : q.request = some t) (hst : (q.reqs t).state = .data)
      (hf : q.i10HostIsCaravanFull aggr = false)
      (hl : (q.reqs t).pduLastSend (q.reqs t).reqCurLength = false) :
      SendStep c aggr t q (q.putChunk c t)
  | last {q} (hreq : q.request = some t) (hst : (q.reqs t).state = .data)
      (hf : q.i10HostIsCaravanFull aggr = false)
      (hl : (q.reqs t).pduLastSend (q.reqs t).reqCurLength = true) :
      SendStep c aggr t q ((q.putChunk c t).finish c t)

section Fields

variable (c : Config) (t : ℕ) (q : SendQueue) (size : ℕ)

@[simp] theorem modifyReq_reqs_self (f : NvmeTcpRequest → NvmeTcpRequest) :
    (q.modifyReq t f).reqs t = f (q.reqs t) := by
  simp [SendQueue.modifyReq]

@[simp] theorem modifyReq_reqs_of_ne {u : ℕ} (hu : u ≠ t) (f : NvmeTcpRequest → NvmeTcpRequest) :
    (q.modifyReq t f).reqs u = q.reqs u := by
  simp [SendQueue.modifyReq, hu]

@[simp] theorem mark_reqs : q.mark.reqs = q.reqs := rfl

@[simp] theorem markIf_false : q.markIf false = q := by simp [SendQueue.markIf]

@[simp] theorem doneSendReq_reqs : (nvmeTcpDoneSendReq q).reqs = q.reqs := rfl

@[simp] theorem startData_reqs : (startData c q).reqs = q.reqs := by
  unfold startData
  split_ifs <;> rfl

theorem digestHdr_full : (q.digestHdr c t size).i10HostIsCaravanFull = q.i10HostIsCaravanFull := by
  unfold SendQueue.digestHdr
  split_ifs <;> rfl

@[simp] theorem digestHdr_request : (q.digestHdr c t size).request = q.request := by
  unfold SendQueue.digestHdr
  split_ifs <;> rfl

@[simp] theorem startData_request : (startData c q).request = q.request := by
  unfold startData
  split_ifs <;> rfl

@[simp] theorem putH2c_request : (q.putH2c c t).request = q.request := by
  simp [SendQueue.putH2c, SendQueue.putHdr, SendQueue.append, SendQueue.modifyReq]

theorem putCmd_request :
    (q.putCmd c t).request = if (q.reqs t).hasInlineData c then q.request else none := by
  unfold SendQueue.putCmd
  dsimp only
  split_ifs <;>
    simp [SendQueue.putHdr, SendQueue.append, SendQueue.modifyReq, SendQueue.markIf,
      nvmeTcpDoneSendReq]

@[simp] theorem putChunk_request : (q.putChunk c t).request = q.request := by
  unfold SendQueue.putChunk dataSentUpdate
  dsimp only
  split_ifs <;> rfl

/-- The header buffer once its digest stands behind the header. -/
def hdrBuf (r : NvmeTcpRequest) : List Byte :=
  if c.hdrDigest then writeAt r.pdu size (c.crc (r.pdu.take size)) else r.pdu

theorem hdrBuf_length {c : Config} {size : ℕ} {r : NvmeTcpRequest}
    (h : r.pdu.length = 72 + nvmeTcpHdgstLen c) (hsize : size ≤ 72) :
    (hdrBuf c size r).length = 72 + nvmeTcpHdgstLen c := by
  unfold hdrBuf
  split_ifs with hd
  · rw [writeAt_length, h]
    rw [c.crc_length, h]
    simp [nvmeTcpHdgstLen, hd]
    omega
  · exact h

theorem digestHdr_reqs_self :
    (q.digestHdr c t size).reqs t = { q.reqs t with pdu := hdrBuf c size (q.reqs t) } := by
  unfold SendQueue.digestHdr hdrBuf
  split_ifs <;> simp [nvmeTcpHdgst]

theorem putH2c_reqs_self :
    (q.putH2c c t).reqs t =
      { q.reqs t with
        pdu := hdrBuf c 24 (q.reqs t)
        state := .data
        iter := if (q.reqs t).dataSent = 0 then (q.reqs t).initIter else (q.reqs t).iter } := by
  simp [SendQueue.putH2c, SendQueue.putHdr, SendQueue.append, digestHdr_reqs_self,
    NvmeTcpRequest.initIter]

theorem putCmd_reqs_self :
    (q.putCmd c t).reqs t =
      if (q.reqs t).hasInlineData c then
        { q.reqs t with pdu := hdrBuf c 72 (q.reqs t), state := .data, iter := (q.reqs t).initIter }
      else { q.reqs t with pdu := hdrBuf c 72 (q.reqs t) } := by
  unfold SendQueue.putCmd
  by_cases hi : (q.reqs t).hasInlineData c = true <;>
    simp [hi, SendQueue.putHdr, SendQueue.append, SendQueue.markIf, digestHdr_reqs_self,
      NvmeTcpRequest.initIter]

theorem putChunk_reqs_self :
    (q.putChunk c t).reqs t = (q.reqs t).advanceReq (q.reqs t).reqCurLength := by
  unfold SendQueue.putChunk dataSentUpdate
  dsimp only
  split_ifs <;> simp [curKvec, SendQueue.append]

end Fields

@[simp] theorem advanceReq_fields (r : NvmeTcpRequest) (n : ℕ) :
    (r.advanceReq n).rq = r.rq ∧ (r.advanceReq n).dataLen = r.dataLen ∧
      (r.advanceReq n).dataSent = r.dataSent + n ∧ (r.advanceReq n).pduLen = r.pduLen ∧
      (r.advanceReq n).pduSent = r.pduSent + n ∧ (r.advanceReq n).state = r.state ∧
      (r.advanceReq n).pdu = r.pdu := by
  unfold NvmeTcpRequest.advanceReq
  dsimp only
  split_ifs <;> simp

structure Frame (t : ℕ) (q q' : SendQueue) : Prop where
  replies : q'.replies = q.replies
  sockNospace : q'.sockNospace = q.sockNospace
  others : ∀ u, u ≠ t → q'.reqs u = q.reqs u
  rq : (q'.reqs t).rq = (q.reqs t).rq
  sendNow : q.sendNow = true → q'.sendNow = true

theorem Frame.refl (t : ℕ) (q : SendQueue) : Frame t q q :=
  ⟨rfl, rfl, fun _ _ => rfl, rfl, id⟩

theorem Frame.trans {t : ℕ} {q₁ q₂ q₃ : SendQueue} (h : Frame t q₁ q₂) (h' : Frame t q₂ q₃) :
    Frame t q₁ q₃ :=
  ⟨h'.replies.trans h.replies, h'.sockNospace.trans h.sockNospace,
    fun u hu => (h'.others u hu).trans (h.others u hu), h'.rq.trans h.rq,
    fun hs => h'.sendNow (h.sendNow hs)⟩

theorem frame_modifyReq {t : ℕ} (q : SendQueue) {f : NvmeTcpRequest → NvmeTcpRequest}
    (hf : (f (q.reqs t)).rq = (q.reqs t).rq) : Frame t q (q.modifyReq t f) :=
  ⟨rfl, rfl, fun _ hu => by simp [hu], by simp [hf], id⟩

theorem frame_digestHdr (c : Config) (t : ℕ) (q : SendQueue) (size : ℕ) :
    Frame t q (q.digestHdr c t size) := by
  unfold SendQueue.digestHdr
  split_ifs
  · exact frame_modifyReq q rfl
  · exact .refl t q

theorem frame_mark (t : ℕ) (q : SendQueue) : Frame t q q.mark :=
  ⟨rfl, rfl, fun _ _ => rfl, rfl, fun _ => rfl⟩

theorem frame_markIf (t : ℕ) (q : SendQueue) (b : Bool) : Frame t q (q.markIf b) :=
  ⟨rfl, rfl, fun _ _ => rfl, rfl, fun h => by simp [SendQueue.markIf, h]⟩

theorem frame_append (t : ℕ) (q : SendQueue) (k : Kvec) : Frame t q (q.append k) :=
  ⟨rfl, rfl, fun _ _ => rfl, rfl, id⟩

theorem frame_done (t : ℕ) (q : SendQueue) : Frame t q (nvmeTcpDoneSendReq q) :=
  ⟨rfl, rfl, fun _ _ => rfl, rfl, id⟩

theorem frame_startData (c : Config) (t : ℕ) (q : SendQueue) : Frame t q (startData c q) := by
  unfold startData
  split_ifs
  · exact ⟨rfl, rfl, fun _ _ => rfl, rfl, id⟩
  · exact .refl t q

theorem frame_putHdr (c : Config) (t : ℕ) (q : SendQueue) (size : ℕ) :
    Frame t q (q.putHdr c t size) :=
  (frame_digestHdr c t q size).trans (frame_append t _ _)

theorem frame_putCmd (c : Config) (t : ℕ) (q : SendQueue) : Frame t q (q.putCmd c t) := by
  have hmark := (frame_putHdr c t q 72).trans (frame_markIf t _ (i10HostIsNodelayPath (q.reqs t)))
  unfold SendQueue.putCmd
  dsimp only
  by_cases hi : (q.reqs t).hasInlineData c = true
  · rw [if_pos hi]
    exact (hmark.trans (frame_startData c t _)).trans (frame_modifyReq _ rfl)
  · rw [if_neg hi]
    exact hmark.trans (frame_done t _)

theorem frame_putChunk (c : Config) (t : ℕ) (q : SendQueue) : Frame t q (q.putChunk c t) := by
  have hadv : Frame t q ((q.append (curKvec (q.reqs t))).modifyReq t
      (·.advanceReq (curKvec (q.reqs t)).len)) :=
    (frame_append t _ _).trans (frame_modifyReq _ (advanceReq_fields _ _).1)
  unfold SendQueue.putChunk dataSentUpdate
  dsimp only
  split_ifs
  · exact ⟨hadv.replies, hadv.sockNospace, hadv.others, hadv.rq, hadv.sendNow⟩
  · exact hadv

theorem frame_finish (c : Config) (t : ℕ) (q : SendQueue) : Frame t q (q.finish c t) := by
  unfold SendQueue.finish
  split_ifs with hd
  · have hdone : Frame t q (dataDone c t q) := by
      simp only [dataDone, hd, if_true]
      exact frame_modifyReq q rfl
    exact ⟨hdone.replies, hdone.sockNospace, hdone.others, hdone.rq, hdone.sendNow⟩
  · exact frame_done t q

theorem SendStep.frame {c : Config} {aggr t : ℕ} {q q' : SendQueue} (h : SendStep c aggr t q q') :
    Frame t q q' := by
  cases h with
  | fullHdr size _ _ _ => exact (frame_digestHdr c t q size).trans (frame_mark t _)
  | fullData _ _ _ => exact frame_mark t q
  | cmd _ _ _ => exact frame_putCmd c t q
  | h2c _ _ _ =>
    exact ((frame_putHdr c t q 24).trans (frame_startData c t _)).trans (frame_modifyReq _ rfl)
  | chunk _ _ _ _ => exact frame_putChunk c t q
  | last _ _ _ _ => exact (frame_putChunk c t q).trans (frame_finish c t _)

theorem frame_of_steps {c : Config} {aggr t : ℕ} {q q' : SendQueue}
    (h : ReflTransGen (SendStep c aggr t) q q') : Frame t q q' := by
  induction h with
  | refl => exact .refl t q
  | tail _ hstep ih => exact ih.trans hstep.frame

end BlkSwitch.Host
