import BlkSwitch.Spec.TargetHeader

/-! The header digest of a PDU that reaches the target. The digest is computed over the received one
as well and written behind it, so the field the target compares has not changed in between. -/

namespace BlkSwitch.Target

open Bytes

variable {crc : List Byte → List Byte} {mem wire : List Byte} {s : HeaderRecv}

theorem digestField_append {a r : List Byte} (h8 : 8 ≤ a.length)
    (h : (NvmeTcpHdr.decode a).hlen.toNat + NVME_TCP_DIGEST_LENGTH ≤ a.length) :
    digestField (a ++ r) = digestField a := by
  rw [digestField, digestField, NvmeTcpHdr.decode_append h8,
    List.drop_append_of_le_length (by omega), List.take_append_of_le_length (by simp; omega)]

/-- All that is left of the check of a digest that was received before its own place. -/
theorem verifyHdgst_eq {a r : List Byte} (h8 : 8 ≤ a.length)
    (h : (NvmeTcpHdr.decode a).hlen.toNat + NVME_TCP_DIGEST_LENGTH ≤ a.length) :
    nvmetTcpVerifyHdgst crc (a ++ r) a.length =
      ((NvmeTcpHdr.decode a).flags &&& NVME_TCP_F_HDGST != 0) := by
  have hhash : nvmetTcpHdgst crc (a ++ r) a.length = a ++ (crc a ++ r.drop (crc a).length) := by
    rw [nvmetTcpHdgst, List.take_left, writeAt, List.take_left, List.drop_append, List.append_assoc,
      List.drop_eq_nil_of_le (by omega), List.nil_append, Nat.add_sub_cancel_left]
  rw [nvmetTcpVerifyHdgst, hhash, digestField_append h8 h, digestField_append h8 h,
    NvmeTcpHdr.decode_append h8, beq_self_eq_true, Bool.and_true]

section Wire

variable (mem wire : List Byte)

def headerEnd : ℕ := (NvmeTcpHdr.decode wire).hlen.toNat + NVME_TCP_DIGEST_LENGTH

def headerAt (k : ℕ) : HeaderRecv :=
  ⟨wire.take k ++ mem.drop k, k, if k < 8 then 8 - k else headerEnd wire - k⟩

def WellSized : Prop :=
  nvmetTcpPduSize (NvmeTcpHdr.decode wire).type ≠ 0 ∧
    (NvmeTcpHdr.decode wire).hlen.toNat = nvmetTcpPduSize (NvmeTcpHdr.decode wire).type

/-- The flags, as a whole header leaves them, ask for something that the header does not have. -/
def FlagMissing : Prop :=
  ((headerAt mem wire (headerEnd wire)).hdrDigest = true ∧
    (NvmeTcpHdr.decode wire).flags &&& NVME_TCP_F_HDGST = 0) ∨
    ((headerAt mem wire (headerEnd wire)).dataDigest = true ∧
      nvmetTcpCheckDdgst (headerAt mem wire (headerEnd wire)).hdgstLen wire = false)

/-- The header does not get through, whatever its digest is. -/
def Refused : Prop := wire.length < headerEnd wire ∨ ¬ WellSized wire ∨ FlagMissing mem wire

def DigestOk (crc : List Byte → List Byte) : Prop :=
  (NvmeTcpHdr.decode wire).flags &&& NVME_TCP_F_HDGST ≠ 0 ∧
    digestField wire = crc (wire.take (NvmeTcpHdr.decode wire).hlen.toNat)

end Wire

section Reads

theorem WellSized.headerEnd_gt (h : WellSized wire) : 24 < headerEnd wire := by
  have hsize : nvmetTcpPduSize (NvmeTcpHdr.decode wire).type ≠ 0 →
      24 ≤ nvmetTcpPduSize (NvmeTcpHdr.decode wire).type := by
    unfold nvmetTcpPduSize
    split_ifs <;> simp
  have := hsize h.1
  have := h.2
  unfold headerEnd NVME_TCP_DIGEST_LENGTH
  omega

theorem decode_take {k : ℕ} (h8 : 8 ≤ k) (hk : k ≤ wire.length) :
    NvmeTcpHdr.decode (wire.take k) = NvmeTcpHdr.decode wire := by
  rw [← NvmeTcpHdr.decode_append (r := wire.drop k) (by simp; omega), List.take_append_drop]

theorem decode_headerAt {k : ℕ} (h8 : 8 ≤ k) (hk : k ≤ wire.length) :
    NvmeTcpHdr.decode (headerAt mem wire k).mem = NvmeTcpHdr.decode wire := by
  rw [headerAt, NvmeTcpHdr.decode_append (by simp; omega), decode_take h8 hk]

theorem hdrDigest_headerAt {k : ℕ} (hk : k ≤ wire.length) (hle : k ≤ HDR_DIGEST) :
    (headerAt mem wire k).hdrDigest = (u8At mem HDR_DIGEST != 0) := by
  have hlen : (wire.take k).length = k := by simp [hk]
  rw [HeaderRecv.hdrDigest, headerAt, u8At, List.getD_eq_getElem?_getD,
    List.getElem?_append_right (by omega), hlen, List.getElem?_drop, Nat.add_sub_cancel' hle, u8At,
    List.getD_eq_getElem?_getD]

theorem takeIn_headerAt {k : ℕ} {b : List Byte} (hk : k ≤ wire.length) (hb : b <+: wire.drop k) :
    takeIn b (headerAt mem wire k) =
      ⟨(headerAt mem wire (k + b.length)).mem, k + b.length,
        (headerAt mem wire k).left - b.length⟩ := by
  rw [takeIn]
  change HeaderRecv.mk (writeAt (wire.take k ++ mem.drop k) k b) _ _ = _
  rw [writeAt_filled hk hb]
  rfl

theorem checkHeader_eight (hon : u8At mem HDR_DIGEST ≠ 0) (h8 : 8 ≤ wire.length) :
    (WellSized wire ∧ checkHeader crc ⟨(headerAt mem wire 8).mem, 8, 0⟩ =
      (.eagain, headerAt mem wire 8)) ∨
      ¬ WellSized wire ∧ (checkHeader crc ⟨(headerAt mem wire 8).mem, 8, 0⟩).1 = .eio := by
  have hdr : NvmeTcpHdr.decode (headerAt mem wire 8).mem = NvmeTcpHdr.decode wire :=
    decode_headerAt le_rfl h8
  have hdgst : HeaderRecv.hdgstLen ⟨(headerAt mem wire 8).mem, 8, 0⟩ = NVME_TCP_DIGEST_LENGTH := by
    have hdig : (headerAt mem wire 8).hdrDigest = true := by
      rw [hdrDigest_headerAt h8 (by decide)]
      simpa using hon
    exact if_pos hdig
  simp only [checkHeader, ne_eq, not_true_eq_false, ↓reduceIte, hdr, hdgst]
  by_cases hsize : nvmetTcpPduSize (NvmeTcpHdr.decode wire).type = 0
  · rw [if_pos hsize]
    exact .inr ⟨fun h => h.1 hsize, rfl⟩
  · rw [if_neg hsize]
    by_cases hlen : (NvmeTcpHdr.decode wire).hlen.toNat = nvmetTcpPduSize
      (NvmeTcpHdr.decode wire).type
    · have hwell : WellSized wire := ⟨hsize, hlen⟩
      have hgt := hwell.headerEnd_gt
      refine .inl ⟨hwell, ?_⟩
      rw [if_neg (not_not.2 hlen)]
      unfold headerEnd NVME_TCP_DIGEST_LENGTH at hgt
      simp only [headerAt, headerEnd, lt_irrefl, ↓reduceIte, NVME_TCP_DIGEST_LENGTH]
      congr 2
      omega
    · rw [if_pos hlen]
      exact .inr ⟨fun h => hlen h.2, rfl⟩

/-- With all of the header in, only the flags decide. -/
theorem checkHeader_end (hwell : WellSized wire) (hlen : headerEnd wire ≤ wire.length) :
    (FlagMissing mem wire ∧ (checkHeader crc (headerAt mem wire (headerEnd wire))).1 = .eproto) ∨
      ¬ FlagMissing mem wire ∧
        (checkHeader crc (headerAt mem wire (headerEnd wire))).1 = .doneRecvPdu := by
  have hgt := hwell.headerEnd_gt
  have hdr := decode_take (by omega) hlen
  have htake : (wire.take (headerEnd wire)).length = headerEnd wire := by simp [hlen]
  have hleft : (headerAt mem wire (headerEnd wire)).left = 0 := by
    rw [headerAt]
    exact (if_neg (by omega)).trans (Nat.sub_self _)
  have hverify : nvmetTcpVerifyHdgst crc (headerAt mem wire (headerEnd wire)).mem (headerEnd wire) =
      ((NvmeTcpHdr.decode wire).flags &&& NVME_TCP_F_HDGST != 0) := by
    have h := @verifyHdgst_eq crc (wire.take (headerEnd wire)) (mem.drop (headerEnd wire))
      (by omega)
      (by rw [htake, hdr]; exact le_rfl)
    rwa [htake, hdr] at h
  have hcheck : ∀ n, nvmetTcpCheckDdgst n (headerAt mem wire (headerEnd wire)).mem =
      nvmetTcpCheckDdgst n wire := by
    intro n
    rw [nvmetTcpCheckDdgst, decode_headerAt (by omega) hlen, nvmetTcpCheckDdgst]
  have hoff : (headerAt mem wire (headerEnd wire)).offset = headerEnd wire := rfl
  unfold checkHeader FlagMissing
  rw [hoff, if_neg (not_not.2 hleft), if_neg (by omega), hverify, hcheck]
  simp only [bne_eq_false_iff_eq]
  split_ifs with hhdr hdata
  · exact .inl ⟨.inl hhdr, rfl⟩
  · exact .inl ⟨.inr hdata, rfl⟩
  · exact .inr ⟨fun h => h.elim hhdr hdata, rfl⟩

/-- Reads can stop in the first 8 bytes or in the rest of a header of the right size. -/
def Midway (wire : List Byte) (k : ℕ) : Prop := k < 8 ∨ WellSized wire ∧ 8 ≤ k ∧ k < headerEnd wire

theorem checkHeader_more {k j : ℕ} (hmid : Midway wire k)
    (hmore : (headerAt mem wire k).left - j ≠ 0) :
    Midway wire (k + j) ∧
      checkHeader crc ⟨(headerAt mem wire (k + j)).mem, k + j, (headerAt mem wire k).left - j⟩ =
        (.eagain, headerAt mem wire (k + j)) := by
  rw [checkHeader, if_pos hmore]
  simp only [headerAt] at hmore ⊢
  rcases hmid with hlt | ⟨hwell, hge, hend⟩
  · rw [if_pos hlt] at hmore
    rw [if_pos hlt, if_pos (by omega), Nat.sub_sub]
    exact ⟨.inl (by omega), rfl⟩
  · rw [if_neg (by omega)] at hmore
    rw [if_neg (by omega), if_neg (by omega), Nat.sub_sub]
    exact ⟨.inr ⟨hwell, by omega, by omega⟩, rfl⟩

theorem checkHeader_takeIn (crc : List Byte → List Byte) (hon : u8At mem HDR_DIGEST ≠ 0) {k : ℕ}
    {b : List Byte} (hk : k ≤ wire.length) (hmid : Midway wire k) (hb : b <+: wire.drop k)
    (hle : b.length ≤ (headerAt mem wire k).left) :
    (Midway wire (k + b.length) ∧ checkHeader crc (takeIn b (headerAt mem wire k)) =
      (.eagain, headerAt mem wire (k + b.length))) ∨
    (Refused mem wire ∧ ((checkHeader crc (takeIn b (headerAt mem wire k))).1 = .eio ∨
      (checkHeader crc (takeIn b (headerAt mem wire k))).1 = .eproto)) ∨
    (¬ Refused mem wire ∧ (checkHeader crc (takeIn b (headerAt mem wire k))).1 = .doneRecvPdu) := by
  have hlen : k + b.length ≤ wire.length := by
    have := hb.length_le
    rw [List.length_drop] at this
    omega
  rw [takeIn_headerAt hk hb]
  generalize b.length = j at hle hlen
  by_cases hmore : (headerAt mem wire k).left - j ≠ 0
  · exact .inl (checkHeader_more hmid hmore)
  · have hlast : (headerAt mem wire k).left = j := by omega
    rw [not_not.1 hmore]
    simp only [headerAt] at hlast
    rcases hmid with hlt | ⟨hwell, hge, hend⟩
    · rw [if_pos hlt] at hlast
      obtain h8 : k + j = 8 := by omega
      rw [h8] at hlen ⊢
      rcases checkHeader_eight hon hlen with ⟨hwell, hnext⟩ | ⟨hnot, hfail⟩
      · have hgt := hwell.headerEnd_gt
        exact .inl ⟨.inr ⟨hwell, le_rfl, by omega⟩, hnext⟩
      · exact .inr (.inl ⟨.inr (.inl hnot), .inl hfail⟩)
    · rw [if_neg (by omega)] at hlast
      obtain hfull : k + j = headerEnd wire := by omega
      have hat : (⟨(headerAt mem wire (headerEnd wire)).mem, headerEnd wire, 0⟩ : HeaderRecv) =
          headerAt mem wire (headerEnd wire) := by
        simp only [headerAt, if_neg (show ¬ headerEnd wire < 8 by omega), Nat.sub_self]
      rw [hfull] at hlen ⊢
      rw [hat]
      rcases checkHeader_end hwell hlen with ⟨hflag, hfail⟩ | ⟨hflags, hdone⟩
      · exact .inr (.inl ⟨.inr (.inr hflag), .inr hfail⟩)
      · refine .inr (.inr ⟨?_, hdone⟩)
        rintro (hshort | hsize | hflag)
        · omega
        · exact hsize hwell
        · exact hflags hflag

theorem recvHeader_cons (n : ℕ) (reads : List ℕ) (wire : List Byte) (s : HeaderRecv) :
    recvHeader crc (n :: reads) wire s =
      if (checkHeader crc (takeIn (wire.take (min n s.left)) s)).1 = .eagain then
        recvHeader crc reads (wire.drop (min n s.left))
    (checkHeader crc (takeIn (wire.take (min n s.left)) s)).2
      else (checkHeader crc (takeIn (wire.take (min n s.left)) s)).1 := by
  rw [recvHeader]
  rcases checkHeader crc (takeIn (wire.take (min n s.left)) s) with ⟨_ | _ | _ | _, s'⟩ <;> rfl

theorem drop_taken {k m : ℕ} :
    (wire.drop k).drop m = wire.drop (k + ((wire.drop k).take m).length) := by
  rw [List.drop_drop, List.length_take, List.length_drop]
  rcases Nat.le_total m (wire.length - k) with hle | hle
  · rw [Nat.min_eq_left hle]
  · rw [List.drop_eq_nil_of_le (by omega), List.drop_eq_nil_of_le (by omega)]

/-- However the reads split the bytes, a header that gets through is not refused. -/
theorem recvHeader_done (hon : u8At mem HDR_DIGEST ≠ 0) (reads : List ℕ) {k : ℕ}
    (hk : k ≤ wire.length) (hmid : Midway wire k)
    (h : recvHeader crc reads (wire.drop k) (headerAt mem wire k) = .doneRecvPdu) :
    ¬ Refused mem wire := by
  induction reads generalizing k with
  | nil => cases h
  | cons n reads ih =>
    rw [recvHeader_cons] at h
    generalize hm : min n (headerAt mem wire k).left = m at h
    have hpre : (wire.drop k).take m <+: wire.drop k := List.take_prefix _ _
    have hle : ((wire.drop k).take m).length ≤ (headerAt mem wire k).left :=
      (List.length_take_le _ _).trans (hm ▸ Nat.min_le_right _ _)
    rcases checkHeader_takeIn crc hon hk hmid hpre hle with ⟨hmid', hnext⟩ | ⟨-, hfail⟩ | ⟨hok, -⟩
    · rw [hnext, if_pos rfl, drop_taken] at h
      refine ih ?_ hmid' h
      rw [List.length_take, List.length_drop]
      omega
    · rcases hfail with hfail | hfail <;> · rw [hfail] at h; cases h
    · exact hok

theorem recvHeader_passes (hon : u8At mem HDR_DIGEST ≠ 0) (hok : ¬ Refused mem wire) :
    recvHeader crc [8, headerEnd wire] wire (headerAt mem wire 0) = .doneRecvPdu := by
  have hwell : WellSized wire := by
    by_contra hnot
    exact hok (.inr (.inl hnot))
  have hlen : headerEnd wire ≤ wire.length := by
    by_contra hshort
    exact hok (.inl (by omega))
  have hgt := hwell.headerEnd_gt
  have h8 : (wire.take 8).length = 8 := by simp; omega
  have hfirst : min 8 (headerAt mem wire 0).left = 8 := rfl
  rw [recvHeader_cons, hfirst]
  rcases checkHeader_takeIn crc hon (Nat.zero_le _) (.inl (by decide)) (List.take_prefix 8 wire)
    (by rw [h8]; exact le_rfl) with ⟨-, hnext⟩ | ⟨href, -⟩ | ⟨-, hdone⟩
  · rw [h8] at hnext
    have hleft : (headerAt mem wire 8).left = headerEnd wire - 8 := rfl
    have hrest : ((wire.drop 8).take (headerEnd wire - 8)).length =
      headerEnd wire - 8 := by simp; omega
    rw [hnext, if_pos rfl, recvHeader_cons, hleft, Nat.min_eq_right (Nat.sub_le _ _)]
    rcases checkHeader_takeIn crc hon (by omega) (.inr ⟨hwell, le_rfl, by omega⟩)
      (List.take_prefix (headerEnd wire - 8) (wire.drop 8))
        (by rw [hrest, hleft]) with ⟨hmid, -⟩ | ⟨href, -⟩ | ⟨-, hdone⟩
    · rw [hrest] at hmid
      rcases hmid with hlt | ⟨-, -, hlt⟩ <;> omega
    · exact absurd href hok
    · rw [hdone, if_neg (by decide)]
  · exact absurd href hok
  · rw [hdone, if_neg (by decide)]

end Reads

/-- With header digests negotiated, a header gets through only with the right digest exactly if it
is right or the header is refused for something else. -/
theorem hdgst_checked_iff (crc : List Byte → List Byte) (mem : List Byte)
    (hon : u8At mem HDR_DIGEST ≠ 0) (wire : List Byte) :
    (∀ reads, recvHeader crc reads wire ⟨mem, 0, 8⟩ = .doneRecvPdu → DigestOk wire crc) ↔
      Refused mem wire ∨ DigestOk wire crc := by
  have hstart : headerAt mem wire 0 = ⟨mem, 0, 8⟩ := rfl
  rw [← hstart]
  constructor
  · intro h
    by_cases href : Refused mem wire
    · exact .inl href
    · exact .inr (h _ (recvHeader_passes hon href))
  · rintro (href | hok) reads h
    · exact absurd href (recvHeader_done hon reads (Nat.zero_le _) (.inl (by decide)) h)
    · exact hok

def digestMem : List Byte := List.replicate 128 0 ++ [1, 0, 0, 0, 0, 0, 0, 0]

/-- A command header of 72 bytes that announces a digest, with `dgst` in its place. -/
def digestWire (dgst : List Byte) : List Byte :=
  NvmeTcpHdr.encode ⟨nvmeTcpCmd, NVME_TCP_F_HDGST, 72, 0, 76⟩ ++ List.replicate 64 7 ++ dgst

theorem hdgst_checked_iff_sample : u8At digestMem HDR_DIGEST ≠ 0 ∧ ∀ reads,
    recvHeader (fun _ => [1, 2, 3, 4]) reads (digestWire [1, 2, 3, 4]) ⟨digestMem, 0, 8⟩ =
      .doneRecvPdu →
      DigestOk (digestWire [1, 2, 3, 4]) fun _ => [1, 2, 3, 4] := by
  have hon : u8At digestMem HDR_DIGEST ≠ 0 := by decide
  refine ⟨hon, (hdgst_checked_iff _ digestMem hon _).2 (.inr ?_)⟩
  unfold DigestOk
  decide +kernel

/-- Whatever the digest is, the header gets through. -/
theorem wrong_hdgst_passes :
    recvHeader (fun _ => [1, 2, 3, 4]) [8, 68] (digestWire [9, 9, 9, 9]) ⟨digestMem, 0, 8⟩ =
      .doneRecvPdu ∧ ¬ DigestOk (digestWire [9, 9, 9, 9]) fun _ => [1, 2, 3, 4] := by
  unfold DigestOk
  decide +kernel

end BlkSwitch.Target
