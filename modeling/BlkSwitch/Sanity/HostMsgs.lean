import BlkSwitch.Proofs.HostStream
import BlkSwitch.Sanity.TargetSync
import BlkSwitch.Spec.Forward

/-! What the host submits are messages as the target reads them, where the two agree on the digests
and on how much data may follow a command. -/

namespace BlkSwitch

open Host Target

/-- What the two ends of a connection have negotiated. -/
structure Agreed (hc : Host.Config) (tc : Target.Config) : Prop where
  digest : tc.hdrDigest = hc.hdrDigest ∧ tc.crc = hc.crc
  plain : hc.dataDigest = false ∧ tc.dataDigest = false
  inline : nvmeTcpInlineDataSize hc ≤ tc.inlineDataSize
  slots : tc.nrCmds ≤ 2 ^ 16

/-- What `nvme_setup_cmd` makes of a request. -/
structure SetUp (rq : Rq) : Prop where
  tag : rq.cmd.commandId = rq.tag
  direction : rq.dataLen ≠ 0 → rq.cmd.nvmeIsWrite = rq.write
  whole : rq.write = true → rq.Whole

instance (rq : Rq) : Decidable (SetUp rq) :=
  decidable_of_iff (rq.cmd.commandId = rq.tag ∧ (rq.dataLen ≠ 0 → rq.cmd.nvmeIsWrite = rq.write) ∧
      (rq.write = true → rq.Whole))
    ⟨fun ⟨h1, h2, h3⟩ => ⟨h1, h2, h3⟩, fun h => ⟨h.tag, h.direction, h.whole⟩⟩

def follows (c : Host.Config) (rq : Rq) : Bool :=
  rq.write && decide (rq.dataLen ≠ 0 ∧ rq.dataLen ≤ nvmeTcpInlineDataSize c)

def capsuleOf (c : Host.Config) (rq : Rq) : Msg :=
  .capsule (cmdPdu c rq rq.dataLen (if follows c rq then rq.dataLen else 0)) (execution c rq).2
    (follows c rq)

variable {hc : Host.Config} {tc : Target.Config} {rq : Rq}

section Request

theorem dataLen_eq_zero_iff (rq : Rq) : rq.dataLen = 0 ↔ rq.blkRqNrPhysSegments = 0 := by
  constructor
  · intro h0
    by_contra hseg
    rw [Rq.dataLen, if_pos hseg] at h0
    cases hs : rq.specialVec with
    | some v =>
      have hv := rq.special v (by simp [hs])
      simp only [Rq.blkRqPayloadBytes, hs, BioVec.len] at h0
      exact hv (List.length_eq_zero_iff.1 h0)
    | none =>
      simp only [Rq.blkRqNrPhysSegments, hs, Option.isSome_none, Bool.false_eq_true,
        if_false] at hseg
      simp only [Rq.blkRqPayloadBytes, hs, Rq.blkRqBytes, List.sum_eq_zero_iff, List.mem_map,
        forall_exists_index, and_imp, forall_apply_eq_imp_iff₂] at h0
      obtain ⟨hne, hback⟩ := rq.backed hs hseg
      obtain ⟨b, bs, hb⟩ := List.exists_cons_of_ne_nil hne
      have hmem : b ∈ rq.bio := by simp [hb]
      exact absurd (h0 b hmem) (hback b hmem).pos.ne'
  · intro hseg
    rw [Rq.dataLen, if_neg (by simpa using hseg)]

theorem execution_length (hc : Host.Config) (rq : Rq) :
    (execution hc rq).2.length = rq.dataLen := by
  unfold execution
  split_ifs with h0 hw
  · simp [h0]
  · exact Rq.data_length h0
  · simp

theorem execution_of_write (h0 : rq.dataLen ≠ 0) (hw : rq.write = true) :
    (execution hc rq).2 = rq.data := by
  simp [execution, h0, hw]

theorem dataLen_toNat (rq : Rq) : (UInt32.ofNat rq.dataLen).toNat = rq.dataLen := by
  have := rq.dataLen_small
  exact UInt32.toNat_ofNat_of_lt' (by change _ < 2 ^ 32; omega)

theorem commandOf_commandId : (commandOf hc rq).commandId = rq.cmd.commandId := by
  unfold commandOf nvmeTcpMapData
  dsimp only
  split_ifs <;> rfl

theorem commandOf_nvmeIsWrite : (commandOf hc rq).nvmeIsWrite = rq.cmd.nvmeIsWrite := by
  unfold commandOf nvmeTcpMapData
  dsimp only
  split_ifs <;> rfl

theorem commandOf_length : (commandOf hc rq).sgl.length.toNat = rq.dataLen := by
  unfold commandOf nvmeTcpMapData
  dsimp only
  split_ifs with h0
  · rw [(dataLen_eq_zero_iff rq).2 h0]
    rfl
  · exact dataLen_toNat rq
  · exact dataLen_toNat rq

/-- The command says so if its data follows it. -/
theorem saysInline_commandOf (h0 : rq.dataLen ≠ 0) :
    saysInline (commandOf hc rq) = follows hc rq := by
  have hseg : ¬ rq.blkRqNrPhysSegments = 0 := fun h => h0 ((dataLen_eq_zero_iff rq).2 h)
  unfold commandOf nvmeTcpMapData follows
  dsimp only
  rw [if_neg hseg]
  split_ifs with h
  · simp [h.1, h.2, h0, saysInline, nvmeTcpSetSgInline, nvmeTcpSetSg]
  · have hno : (rq.write && decide (rq.dataLen ≠ 0 ∧ rq.dataLen ≤ nvmeTcpInlineDataSize hc)) =
        false := by
      simp only [h0, ne_eq, not_false_eq_true, true_and, Bool.and_eq_false_iff,
        decide_eq_false_iff_not]
      by_contra hcon
      simp only [not_or, Bool.not_eq_false, not_not] at hcon
      exact h hcon
    rw [hno]
    rfl

end Request

section Messages

variable (h : Agreed hc tc)
include h

theorem capsuleOf_framed : (capsuleOf hc rq).Framed tc := by
  refine ⟨by simp [capsuleOf, Msg.hdr, Msg.head, cmdPdu, nvmetTcpPduSize, nvmeTcpCmd, nvmeTcpIcreq],
    ?_, ?_⟩
  · simp [capsuleOf, Msg.hdr, Msg.head, cmdPdu]
  · intro hd
    rw [h.digest.1] at hd
    simp [capsuleOf, Msg.hdr, cmdPdu, hd, h.plain.1, Host.hdgstFlag, NVME_TCP_F_HDGST]

theorem capsuleOf_fits (hs : SetUp rq) : (capsuleOf hc rq).Fits tc := by
  have hlen := execution_length hc rq
  refine ⟨?_, ?_, ?_⟩
  · exact hlen.trans commandOf_length.symm
  · intro hw
    change (commandOf hc rq).nvmeIsWrite = false at hw
    rw [commandOf_nvmeIsWrite] at hw
    rw [hlen]
    unfold execution
    split_ifs with h0 hrw
    · simp [h0]
    · rw [hs.direction h0, hrw] at hw
      cases hw
    · rfl
  · have hempty : (execution hc rq).2 ≠ [] ↔ rq.dataLen ≠ 0 := by
      rw [← hlen, ne_eq, ne_eq, List.length_eq_zero_iff]
    split_ifs with hf
    · have hf' := hf
      simp only [follows, Bool.and_eq_true, decide_eq_true_eq] at hf'
      obtain ⟨hw, h0, hle⟩ := hf'
      refine ⟨(saysInline_commandOf h0).trans hf, ?_, hempty.2 h0, ?_⟩
      · exact commandOf_nvmeIsWrite.trans ((hs.direction h0).trans hw)
      · rw [hlen]
        exact hle.trans h.inline
    · intro hne
      exact (saysInline_commandOf (hempty.1 hne)).trans (by simpa using hf)

theorem wirePdu_eq (hdr data : List Byte) :
    wirePdu hc hdr data = hdr ++ hdgstOf tc hdr ++ data := by
  simp [wirePdu, hdgstOf, h.digest.1, h.digest.2, h.plain.1]

theorem submittedCmd_eq (r : NvmeTcpRequest) :
    submittedCmd hc rq (nvmeTcpSetupCmdPdu hc rq r) = msgWire tc [capsuleOf hc rq] := by
  have hlen : (nvmeTcpSetupCmdPdu hc rq r).pduLen = if follows hc rq then rq.dataLen else 0 := by
    simp only [nvmeTcpSetupCmdPdu, follows]
    by_cases h0 : rq.dataLen = 0
    · simp [h0]
    · simp [h0]
  have hdata : (if (nvmeTcpSetupCmdPdu hc rq r).pduLen = 0 then [] else rq.data) =
      (capsuleOf hc rq).body := by
    rw [hlen]
    simp only [capsuleOf, Msg.body]
    by_cases hf : follows hc rq = true
    · have hf' := hf
      simp only [follows, Bool.and_eq_true, decide_eq_true_eq] at hf'
      rw [if_pos hf, if_neg hf'.2.1, if_pos hf, execution_of_write hf'.2.1 hf'.1]
    · simp [hf]
  rw [submittedCmd, hdata, hlen, wirePdu_eq h, msgWire_cons, msgWire_nil, List.append_nil]
  rfl

theorem submittedH2c_eq {r : NvmeTcpRequest} {ttag : UInt16} (hr : r.rq = rq) (h0 : rq.dataLen ≠ 0)
    (hw : rq.write = true) (hlen : r.pduLen = rq.dataLen) (hsent : r.dataSent = 0) :
    submittedH2c hc r ttag = msgWire tc [.h2c (h2cPdu hc r ttag) (execution hc rq).2] := by
  have hdata : (r.rq.data.drop r.dataSent).take r.pduLen = (execution hc rq).2 := by
    rw [hr, hsent, hlen, List.drop_zero, execution_of_write h0 hw]
    exact List.take_of_length_le (Rq.data_length h0).le
  rw [submittedH2c, hdata, wirePdu_eq h, msgWire_cons, msgWire_nil, List.append_nil]
  rfl

theorem h2cPdu_framed (r : NvmeTcpRequest) (ttag : UInt16) (data : List Byte) :
    (Msg.h2c (h2cPdu hc r ttag) data).Framed tc := by
  refine ⟨?_, ?_, ?_⟩
  · simp [Msg.hdr, Msg.head, h2cPdu, nvmetTcpPduSize, nvmeTcpCmd, nvmeTcpIcreq, nvmeTcpH2cData]
  · simp [Msg.hdr, Msg.head, h2cPdu]
  · intro hd
    rw [h.digest.1] at hd
    simp only [Msg.hdr, h2cPdu, hd, h.plain.1, Host.hdgstFlag]
    decide

end Messages

end BlkSwitch
