import BlkSwitch.Proofs.TargetWrites

/-! The messages of a host as the target reads them, the bytes cut by the reads as they like: the
target is in the header of the first message that is left, or that header is complete. -/

namespace BlkSwitch.Target

open Bytes NvmetTcpQueue

inductive Msg
  /-- a command and the data of its transfer, which follows the header if `inl` -/
  | capsule (pdu : NvmeTcpCmdPdu) (data : List Byte) (inl : Bool)
  /-- the data of a command that asked for it -/
  | h2c (pdu : NvmeTcpDataPdu) (data : List Byte)

namespace Msg

def hdr : Msg → NvmeTcpHdr
  | capsule pdu _ _ => pdu.hdr
  | h2c pdu _ => pdu.hdr

def head : Msg → List Byte
  | capsule pdu _ _ => pdu.encode
  | h2c pdu _ => pdu.encode

def body : Msg → List Byte
  | capsule _ data inl => if inl then data else []
  | h2c _ data => data

variable (c : Config) (m : Msg)

def front : List Byte := m.head ++ hdgstOf c m.head

def bytes : List Byte := m.front c ++ m.body

/-- The header is of a size the target knows, and has its digest where that was agreed on. -/
structure Framed : Prop where
  size : nvmetTcpPduSize m.hdr.type = m.head.length
  hlen : m.hdr.hlen.toNat = m.head.length
  flag : c.hdrDigest = true → m.hdr.flags &&& NVME_TCP_F_HDGST ≠ 0

theorem head_length_ge : 24 ≤ m.head.length := by
  cases m <;> simp [head]

theorem decode_head (r : List Byte) : NvmeTcpHdr.decode (m.head ++ r) = m.hdr := by
  cases m with
  | capsule pdu data inl =>
    rw [head, NvmeTcpCmdPdu.encode, List.append_assoc, NvmeTcpHdr.decode_encode_append]
    rfl
  | h2c pdu data => exact pdu.hdr_encode_append r

theorem front_length : (m.front c).length = m.head.length + nvmetTcpHdgstLen c := by
  rw [front, List.length_append, hdgstOf, nvmetTcpHdgstLen]
  cases c.hdrDigest with
  | true => simp [c.crc_length]
  | false => simp

theorem decode_front (r : List Byte) : NvmeTcpHdr.decode (m.front c ++ r) = m.hdr := by
  rw [front, List.append_assoc, decode_head]

end Msg

def msgWire (c : Config) (ms : List Msg) : List Byte := ms.flatMap (·.bytes c)

def frontLen (c : Config) : List Msg → ℕ
  | [] => 0
  | m :: _ => (m.front c).length

/-- `k` bytes of the first header are in. -/
structure AtFront (c : Config) (ms : List Msg) (k : ℕ) (q : NvmetTcpQueue) : Prop where
  state : q.rcvState = .pdu ∧ q.offset = k
  left : q.left = if k < 8 then 8 - k else frontLen c ms - k
  inside : k ≤ (msgWire c ms).length ∧ (8 ≤ k → k < frontLen c ms)
  pdu : ∃ mem : List Byte, q.pdu = (msgWire c ms).take k ++ mem.drop k

section Read

variable {c : Config} {env : Env} {ms : List Msg} {m : Msg} {k : ℕ} {b : List Byte}
    {q : NvmetTcpQueue}

@[simp] theorem msgWire_nil : msgWire c [] = [] := rfl

theorem msgWire_cons : msgWire c (m :: ms) = m.front c ++ (m.body ++ msgWire c ms) := by
  rw [msgWire, List.flatMap_cons, Msg.bytes, List.append_assoc]
  rfl

theorem msgWire_append (ms' : List Msg) : msgWire c (ms ++ ms') = msgWire c ms ++ msgWire c ms' :=
  List.flatMap_append

theorem atFront_prepare (ms : List Msg) (q : NvmetTcpQueue) :
    AtFront c ms 0 (nvmetPrepareReceivePdu q) :=
  ⟨⟨rfl, rfl⟩, rfl, ⟨Nat.zero_le _, by simp⟩, q.pdu, rfl⟩

theorem AtFront.append (h : AtFront c ms k q) (ms' : List Msg) : AtFront c (ms ++ ms') k q := by
  have hfront : 8 ≤ k → frontLen c (ms ++ ms') = frontLen c ms := by
    intro h8
    cases ms with
    | nil =>
      have := h.inside.2 h8
      simp [frontLen] at this
    | cons m ms => rfl
  refine ⟨h.state, ?_, ⟨?_, fun h8 => ?_⟩, ?_⟩
  · rw [h.left]
    split_ifs with h8
    · rfl
    · rw [hfront (by omega)]
  · rw [msgWire_append, List.length_append]
    have := h.inside.1
    omega
  · rw [hfront h8]
    exact h.inside.2 h8
  · obtain ⟨mem, hmem⟩ := h.pdu
    exact ⟨mem, by rw [msgWire_append, List.take_append_of_le_length h.inside.1, hmem]⟩

theorem AtFront.congr {q' : NvmetTcpQueue} (h : AtFront c ms k q)
    (heq : q'.rcvState = q.rcvState ∧ q'.offset = q.offset ∧ q'.left = q.left ∧ q'.pdu = q.pdu) :
    AtFront c ms k q' := by
  obtain ⟨h1, h2, h3, h4⟩ := heq
  exact ⟨⟨h1.trans h.state.1, h2.trans h.state.2⟩, h3.trans h.left, h.inside, h4 ▸ h.pdu⟩

theorem AtFront.readHeader (h : AtFront c ms k q) (hb : b <+: (msgWire c ms).drop k) :
    ∃ mem : List Byte, (readHeader b q).pdu =
      (msgWire c ms).take (k + b.length) ++ mem.drop (k + b.length) := by
  obtain ⟨mem, hmem⟩ := h.pdu
  refine ⟨mem, ?_⟩
  change writeAt q.pdu q.offset b = _
  rw [h.state.2, hmem, writeAt_filled h.inside.1 hb]

theorem AtFront.length_le (h : AtFront c ms k q) (hb : b <+: (msgWire c ms).drop k) :
    k + b.length ≤ (msgWire c ms).length := by
  have hle := hb.length_le
  have := h.inside.1
  rw [List.length_drop] at hle
  omega

theorem AtFront.left_pos (h : AtFront c ms k q) : 0 < q.left := by
  have hleft := h.left
  have hin := h.inside.2
  split_ifs at hleft <;> omega

theorem AtFront.more (env : Env) (h : AtFront c ms k q) (hb : b <+: (msgWire c ms).drop k)
    (hlt : b.length < q.left) :
    nvmetTcpTryRecv c env b q = Target.readHeader b q ∧
      AtFront c ms (k + b.length) (Target.readHeader b q) := by
  have hleft : (Target.readHeader b q).left ≠ 0 := by
    change q.left - b.length ≠ 0
    omega
  have hcase := h.left
  have hin := h.inside.2
  refine ⟨?_, ⟨h.state.1, congrArg (· + b.length) h.state.2⟩, ?_, ⟨h.length_le hb, fun h8 => ?_⟩,
    h.readHeader hb⟩
  · unfold nvmetTcpTryRecv
    rw [h.state.1]
    unfold nvmetTcpTryRecvPdu tryRecvHeader
    simp only [if_pos hleft, Bool.false_eq_true, if_false]
  · change q.left - b.length = _
    split_ifs at hcase ⊢ <;> omega
  · split_ifs at hcase <;> omega

theorem AtFront.eight (env : Env) (h : AtFront c (m :: ms) k q) (hm : m.Framed c)
    (hb : b <+: (msgWire c (m :: ms)).drop k) (hk : k < 8) (hend : b.length = q.left) :
    ∃ n, nvmetTcpTryRecv c env b q = { Target.readHeader b q with left := n } ∧
      AtFront c (m :: ms) 8 { Target.readHeader b q with left := n } := by
  have hcase := h.left
  rw [if_pos hk] at hcase
  have h8 : k + b.length = 8 := by omega
  have hlen := h.length_le hb
  obtain ⟨mem, hmem⟩ := h.readHeader hb
  rw [h8] at hmem hlen
  have hdr : NvmeTcpHdr.decode (Target.readHeader b q).pdu = m.hdr := by
    rw [hmem, NvmeTcpHdr.decode_append (by simp; omega), decode_take le_rfl hlen, msgWire_cons,
      Msg.decode_front]
  have hoff : (Target.readHeader b q).offset = 8 := by
    change q.offset + b.length = 8
    rw [h.state.2, h8]
  have hleft : (Target.readHeader b q).left = 0 := by
    change q.left - b.length = 0
    omega
  have hge := m.head_length_ge
  have hsize : nvmetTcpPduSize m.hdr.type ≠ 0 := by
    rw [hm.size]
    omega
  refine ⟨m.head.length - 8 + nvmetTcpHdgstLen c, ?_, ⟨h.state.1, hoff⟩, ?_, ⟨hlen, fun _ => ?_⟩,
    mem, hmem⟩
  · unfold nvmetTcpTryRecv
    rw [h.state.1]
    unfold nvmetTcpTryRecvPdu tryRecvHeader
    dsimp only
    rw [if_neg (not_not.2 hleft), if_pos hoff, hdr, if_neg hsize,
      if_neg (show ¬ m.hdr.hlen.toNat ≠ nvmetTcpPduSize m.hdr.type by rw [hm.hlen, hm.size]; simp),
      hm.hlen, hoff]
    rfl
  · rw [if_neg (lt_irrefl 8), frontLen, Msg.front_length]
    dsimp only
    omega
  · rw [frontLen, Msg.front_length]
    omega

theorem AtFront.whole (env : Env) (h : AtFront c (m :: ms) k q) (hm : m.Framed c)
    (hdd : c.dataDigest = false) (hb : b <+: (msgWire c (m :: ms)).drop k) (hk : 8 ≤ k)
    (hend : b.length = q.left) :
    k + b.length = (m.front c).length ∧ (∃ r, (Target.readHeader b q).pdu = m.front c ++ r) ∧
      headerRead q b = some (Target.readHeader b q).pdu ∧
      nvmetTcpTryRecv c env b q =
        if (doneRecvLive c env (Target.readHeader b q)).1 then
          nvmetTcpFatalError (doneRecvLive c env (Target.readHeader b q)).2
        else (doneRecvLive c env (Target.readHeader b q)).2 := by
  have hcase := h.left
  rw [if_neg (by omega)] at hcase
  have hin := h.inside.2 hk
  have hfull : k + b.length = (m.front c).length := by
    change k < (m.front c).length at hin
    change q.left = (m.front c).length - k at hcase
    omega
  have hge := m.head_length_ge
  have hfront := m.front_length c
  obtain ⟨mem, hmem⟩ := h.readHeader hb
  rw [hfull, msgWire_cons, List.take_left] at hmem
  have hleft : (Target.readHeader b q).left = 0 := by
    change q.left - b.length = 0
    omega
  have hoff : (Target.readHeader b q).offset = (m.front c).length := by
    change q.offset + b.length = _
    rw [h.state.2, hfull]
  refine ⟨hfull, ⟨_, hmem⟩, ?_, ?_⟩
  · unfold headerRead
    rw [if_pos ⟨h.state.1, by omega, by rw [h.state.2]; omega⟩]
    rfl
  · have hver : ¬ (c.hdrDigest = true ∧
        nvmetTcpVerifyHdgst c.crc (Target.readHeader b q).pdu (Target.readHeader b q).offset =
          false) := by
      rintro ⟨hhdr, hver⟩
      have hhd : nvmetTcpHdgstLen c = NVME_TCP_DIGEST_LENGTH := if_pos hhdr
      have hdec : NvmeTcpHdr.decode (m.front c) = m.hdr := by
        rw [← List.append_nil (m.front c), Msg.decode_front]
      rw [hmem, hoff, verifyHdgst_eq (by omega) (by rw [hdec, hm.hlen, hfront, hhd]), hdec] at hver
      exact hm.flag hhdr (by simpa using hver)
    have hdata : ¬ (c.dataDigest = true ∧
        nvmetTcpCheckDdgst (nvmetTcpHdgstLen c) (Target.readHeader b q).pdu = false) := by
      rintro ⟨hdata, -⟩
      rw [hdd] at hdata
      cases hdata
    have h8 : ¬ (Target.readHeader b q).offset = 8 := by omega
    unfold nvmetTcpTryRecv
    rw [h.state.1]
    unfold nvmetTcpTryRecvPdu tryRecvHeader
    dsimp only
    rw [if_neg (not_not.2 hleft), if_neg h8, if_neg hver, if_neg hdata]

/-- What a read that ends in a header does, or one that ends it. -/
theorem AtFront.read (env : Env) (h : AtFront c ms k q) (hms : ∀ m ∈ ms, m.Framed c)
    (hdd : c.dataDigest = false) (hb : b <+: (msgWire c ms).drop k) (hle : b.length ≤ q.left) :
    (∃ pdu o n, nvmetTcpTryRecv c env b q = { q with pdu := pdu, offset := o, left := n } ∧
      headerRead q b = none ∧
      AtFront c ms (k + b.length) { q with pdu := pdu, offset := o, left := n }) ∨
    ∃ m rest, ms = m :: rest ∧ k + b.length = (m.front c).length ∧
      (∃ r, (Target.readHeader b q).pdu = m.front c ++ r) ∧
      headerRead q b = some (Target.readHeader b q).pdu ∧ nvmetTcpTryRecv c env b q =
        if (doneRecvLive c env (Target.readHeader b q)).1 then
          nvmetTcpFatalError (doneRecvLive c env (Target.readHeader b q)).2
        else (doneRecvLive c env (Target.readHeader b q)).2 := by
  rcases Nat.lt_or_ge b.length q.left with hlt | hge
  · obtain ⟨hrun, hat⟩ := h.more env hb hlt
    refine .inl ⟨_, _, _, hrun, ?_, hat⟩
    exact if_neg fun hcond => by omega
  · have hend : b.length = q.left := by omega
    have hpos := h.left_pos
    cases ms with
    | nil =>
      have hno := h.length_le hb
      rw [msgWire_nil, List.length_nil] at hno
      omega
    | cons m ms =>
      have hm := hms m List.mem_cons_self
      by_cases hk : k < 8
      · obtain ⟨n, hrun, hat⟩ := h.eight env hm hb hk hend
        have hcase := h.left
        rw [if_pos hk] at hcase
        have h8 : k + b.length = 8 := by omega
        refine .inl ⟨_, _, n, hrun, if_neg fun hcond => ?_, ?_⟩
        · exact hcond.2.2 (by rw [h.state.2, h8])
        · rw [h8]
          exact hat
      · exact .inr ⟨m, ms, rfl, h.whole env hm hdd hb (by omega) hend⟩

end Read

end BlkSwitch.Target
