import BlkSwitch.Sanity.HostQueue
import BlkSwitch.Sanity.HostStream

/-! The PDUs a host submits: what the driver sets up is what `remainder` says is left to be
sent, and it is as long as its header says. -/

namespace BlkSwitch.Host

open Bytes

def plenOf (b : List Byte) : ℕ := (NvmeTcpHdr.decode b).plen.toNat

variable {c : Config}

theorem nvmeTcpHdgstLen_le (c : Config) : nvmeTcpHdgstLen c ≤ 4 := by
  unfold nvmeTcpHdgstLen
  split_ifs <;> decide

theorem nvmeTcpDdgstLen_le (c : Config) : nvmeTcpDdgstLen c ≤ 4 := by
  unfold nvmeTcpDdgstLen
  split_ifs <;> decide

theorem Rq.dataLen_small (rq : Rq) : rq.dataLen + 128 < 2 ^ 32 := by
  have hsmall := rq.small
  unfold Rq.dataLen Rq.blkRqPayloadBytes
  split_ifs
  · cases hs : rq.specialVec with
    | some v => exact hsmall.2 v (by simp [hs])
    | none => exact hsmall.1
  · norm_num

theorem wirePdu_length (c : Config) (hdr data : List Byte) :
    (wirePdu c hdr data).length =
      hdr.length + nvmeTcpHdgstLen c + data.length +
        if data ≠ [] then nvmeTcpDdgstLen c else 0 := by
  have hcrc := c.crc_length hdr
  have hcrc' := c.crc_length data
  unfold wirePdu nvmeTcpHdgstLen nvmeTcpDdgstLen
  cases c.hdrDigest <;> cases c.dataDigest <;> by_cases hd :
    data = [] <;> simp [hd, hcrc, hcrc'] <;> omega

theorem plenOf_append (h : NvmeTcpHdr) (rest : List Byte) :
    plenOf (h.encode ++ rest) = h.plen.toNat := by
  rw [plenOf, NvmeTcpHdr.decode_encode_append]

theorem toNat_ofNat_of_small {n : ℕ} (h : n < 2 ^ 32) : (UInt32.ofNat n).toNat = n := by
  rw [UInt32.toNat_ofNat_of_lt' (by simpa [UInt32.size] using h)]

/-! The command PDU. -/

theorem setupCmdPdu_pduLen (rq : Rq) (r : NvmeTcpRequest) :
    (nvmeTcpSetupCmdPdu c rq r).pduLen =
      if (nvmeTcpSetupCmdPdu c rq r).hasInlineData c then rq.dataLen else 0 := by
  simp only [nvmeTcpSetupCmdPdu, NvmeTcpRequest.hasInlineData]
  by_cases hw : rq.write = true <;> by_cases hi : rq.dataLen ≤ nvmeTcpInlineDataSize c <;>
    by_cases h0 : rq.dataLen = 0 <;> simp [hw, hi, h0]

theorem setupCmdPdu_data (rq : Rq) (r : NvmeTcpRequest) :
    (if (nvmeTcpSetupCmdPdu c rq r).pduLen = 0 then [] else rq.data) =
      (if (nvmeTcpSetupCmdPdu c rq r).hasInlineData c then rq.data else []) := by
  have hpl := setupCmdPdu_pduLen (c := c) rq r
  by_cases hi : (nvmeTcpSetupCmdPdu c rq r).hasInlineData c = true
  · have hne : rq.dataLen ≠ 0 := hasInlineData_dataLen_ne hi
    rw [if_pos hi] at hpl
    rw [if_pos hi, hpl, if_neg hne]
  · rw [if_neg hi] at hpl
    rw [if_neg hi, hpl, if_pos rfl]

theorem submittedCmd_plen (rq : Rq) (r : NvmeTcpRequest) :
    (submittedCmd c rq (nvmeTcpSetupCmdPdu c rq r)).length =
      plenOf (submittedCmd c rq (nvmeTcpSetupCmdPdu c rq r)) := by
  have hsmall := rq.dataLen_small
  have hh := nvmeTcpHdgstLen_le c
  have hdd := nvmeTcpDdgstLen_le c
  have hpl := setupCmdPdu_pduLen (c := c) rq r
  have hplen : plenOf (submittedCmd c rq (nvmeTcpSetupCmdPdu c rq r)) =
      72 + nvmeTcpHdgstLen c + (nvmeTcpSetupCmdPdu c rq r).pduLen +
        if (nvmeTcpSetupCmdPdu c rq r).pduLen ≠ 0 then nvmeTcpDdgstLen c else 0 := by
    simp only [submittedCmd, wirePdu, NvmeTcpCmdPdu.encode, List.append_assoc, plenOf_append,
      cmdPdu]
    rw [toNat_ofNat_of_small]
    rw [hpl]
    split_ifs <;> omega
  rw [hplen, submittedCmd, wirePdu_length, NvmeTcpCmdPdu.encode_length]
  by_cases h0 : (nvmeTcpSetupCmdPdu c rq r).pduLen = 0
  · simp [h0]
  · have hi : (nvmeTcpSetupCmdPdu c rq r).hasInlineData c = true := by
      by_contra hi
      exact h0 (by rw [hpl, if_neg hi])
    have hne : rq.dataLen ≠ 0 := hasInlineData_dataLen_ne hi
    have hlen := Rq.data_length hne
    have hdne : rq.data ≠ [] := by
      intro hnil
      rw [hnil] at hlen
      exact hne hlen.symm
    rw [if_pos hi] at hpl
    simp only [if_false, hlen, hpl, hdne, ne_eq, not_false_eq_true, if_true, hne]

theorem setupCmdPdu_take (rq : Rq) (r : NvmeTcpRequest) :
    (nvmeTcpSetupCmdPdu c rq r).pdu.take 72 =
      (cmdPdu c rq rq.dataLen (nvmeTcpSetupCmdPdu c rq r).pduLen).encode := by
  have h72 : (cmdPdu c rq rq.dataLen (nvmeTcpSetupCmdPdu c rq r).pduLen).encode.length = 72 :=
    NvmeTcpCmdPdu.encode_length _
  conv_lhs => rw [← h72]
  exact take_writeAt_zero _ _

/-- A command that waits on `send_list` has its whole PDU left. -/
theorem remainder_setupCmdPdu (hd : c.dataDigest = false) (rq : Rq) (r : NvmeTcpRequest) :
    remainder c (nvmeTcpSetupCmdPdu c rq r) = submittedCmd c rq (nvmeTcpSetupCmdPdu c rq r) := by
  have hst : (nvmeTcpSetupCmdPdu c rq r).state = .cmdPdu := rfl
  have hoff : (nvmeTcpSetupCmdPdu c rq r).offset = 0 := rfl
  simp only [remainder, hst, hoff, List.drop_zero, hdrWire, setupCmdPdu_take, submittedCmd, wirePdu,
    hd, setupCmdPdu_data]
  simp
  rfl

/-! The H2C data PDU. -/

theorem setupH2c_accepted {r : NvmeTcpRequest} {pdu : NvmeTcpR2tPdu}
    (hok : (nvmeTcpSetupH2cDataPdu c r pdu).1 = true) :
    r.dataSent + pdu.second.toNat ≤ r.dataLen ∧
      (nvmeTcpSetupH2cDataPdu c r pdu).2 =
        { r with
          pduLen := pdu.second.toNat
          pduSent := 0
          pdu := writeAt r.pdu 0
            (h2cPdu c { r with pduLen := pdu.second.toNat, pduSent := 0 } pdu.ttag).encode } := by
  unfold nvmeTcpSetupH2cDataPdu at hok ⊢
  dsimp only at hok ⊢
  split_ifs at hok ⊢ with hlen hoff
  exact ⟨Nat.not_lt.1 hlen, rfl⟩

theorem toNat_pos_of_ne {n : UInt32} (h : n ≠ 0) : 0 < n.toNat := by
  rw [Nat.pos_iff_ne_zero]
  intro h0
  exact h (UInt32.toNat_inj.1 (by simpa using h0))

theorem h2c_data_length {r : NvmeTcpRequest} (h : ReqGood c r) {n : ℕ} (hn : 0 < n)
    (hroom : r.dataSent + n ≤ r.dataLen) : ((r.rq.data.drop r.dataSent).take n).length = n := by
  have hlen := h.data_length (by omega)
  rw [List.length_take, List.length_drop, hlen]
  omega

theorem submittedH2c_plen {r : NvmeTcpRequest} (h : ReqGood c r) {pdu : NvmeTcpR2tPdu}
    (hok : (nvmeTcpSetupH2cDataPdu c r pdu).1 = true) (hne : pdu.second ≠ 0) :
    (submittedH2c c (nvmeTcpSetupH2cDataPdu c r pdu).2 pdu.ttag).length =
      plenOf (submittedH2c c (nvmeTcpSetupH2cDataPdu c r pdu).2 pdu.ttag) := by
  obtain ⟨hroom, heq⟩ := setupH2c_accepted hok
  have hpos := toNat_pos_of_ne hne
  have hlen := h2c_data_length h hpos hroom
  have hsmall := r.rq.dataLen_small
  have hh := nvmeTcpHdgstLen_le c
  have hdd := nvmeTcpDdgstLen_le c
  have hdl := h.len
  have hdne : (r.rq.data.drop r.dataSent).take pdu.second.toNat ≠ [] :=
    List.ne_nil_of_length_pos (by omega)
  rw [heq]
  have hplen : ∀ r' : NvmeTcpRequest, r'.pduLen = pdu.second.toNat →
      plenOf (submittedH2c c r' pdu.ttag) =
        24 + nvmeTcpHdgstLen c + pdu.second.toNat + nvmeTcpDdgstLen c := by
    intro r' hr'
    simp only [submittedH2c, wirePdu, NvmeTcpXferPdu.encode, List.append_assoc, plenOf_append,
      h2cPdu, hr']
    rw [toNat_ofNat_of_small (by omega)]
  rw [hplen _ rfl, submittedH2c, wirePdu_length, NvmeTcpXferPdu.encode_length]
  simp only [hlen, hdne, ne_eq, not_false_eq_true, if_true]

theorem remainder_setupH2c (hd : c.dataDigest = false) {r : NvmeTcpRequest} {pdu : NvmeTcpR2tPdu}
    (hok : (nvmeTcpSetupH2cDataPdu c r pdu).1 = true) :
    remainder c { (nvmeTcpSetupH2cDataPdu c r pdu).2 with state := .h2cPdu, offset := 0 } =
      submittedH2c c (nvmeTcpSetupH2cDataPdu c r pdu).2 pdu.ttag := by
  obtain ⟨-, heq⟩ := setupH2c_accepted hok
  rw [heq]
  have h24 : ∀ p : NvmeTcpXferPdu, (writeAt r.pdu 0 p.encode).take 24 = p.encode := fun p => by
    conv_lhs => rw [← NvmeTcpXferPdu.encode_length p]
    exact take_writeAt_zero _ _
  simp only [remainder, hdrWire, h24, List.drop_zero, submittedH2c, wirePdu, hd]
  simp
  rfl

end BlkSwitch.Host
