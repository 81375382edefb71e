import BlkSwitch.Spec.HostRecv
import BlkSwitch.Proofs.HostDoorbell

/-! The receive path of the host does not depend on how the stream is cut into pieces: a piece that
ends inside a header, the data or a digest leaves the queue where the next one goes on. -/

namespace BlkSwitch.Host

open Bytes RecvQueue

section Iter

theorem bvecAdvance_add (vs : List BioVec) (off m n : ℕ) :
    bvecAdvance (bvecAdvance vs off m).1 (bvecAdvance vs off m).2 n = bvecAdvance vs off
      (m + n) := by
  induction vs generalizing off m with
  | nil => rfl
  | cons v vs ih =>
    rw [bvecAdvance, bvecAdvance]
    by_cases hm : m < v.len - off
    · rw [if_pos hm, bvecAdvance]
      dsimp only
      by_cases hn : m + n < v.len - off
      · rw [if_pos (by omega), if_pos hn, Nat.add_assoc]
      · rw [if_neg (by omega), if_neg hn]
        congr 1
        omega
    · rw [if_neg hm, ih, if_neg (by omega)]
      congr 1
      omega

theorem IovIter.advance_add (it : IovIter) (m n : ℕ) :
    (it.advance m).advance n = it.advance (m + n) := by
  have hmin : min m it.count + min n (it.count - min m it.count) = min (m + n) it.count := by omega
  simp only [IovIter.advance, bvecAdvance_add, hmin]
  congr 1
  omega

end Iter

section Copy

variable {r : NvmeTcpRequest} {len x : ℕ}

def copyOut (len : ℕ) (r : NvmeTcpRequest) : Ret × NvmeTcpRequest × ℕ :=
  recvDataLoop (len + r.currBio.length + 1) len r

theorem nextBio_cases (h : (nextBio r).1 = 0) :
    (r.iter.count ≠ 0 ∧ (nextBio r).2 = r) ∨ (nextBio r).2.currBio.length < r.currBio.length := by
  by_cases h0 : r.iter.count = 0
  · right
    unfold nextBio at h ⊢
    rw [if_pos h0] at h ⊢
    dsimp only at h ⊢
    split_ifs at h ⊢ with hnull hnil
    · cases h
    · cases h
    · have hpos := List.length_pos_iff.2 hnil
      rw [List.length_tail] at hpos ⊢
      omega
  · exact .inl ⟨h0, by rw [nextBio, if_neg h0]⟩

def turnLen (len : ℕ) (r : NvmeTcpRequest) : ℕ := min len (nextBio r).2.iter.count

def afterTurn (len : ℕ) (r : NvmeTcpRequest) : NvmeTcpRequest :=
  { (nextBio r).2 with iter := (nextBio r).2.iter.advance (turnLen len r) }

theorem recvDataLoop_succ (fuel : ℕ) (hlen : len ≠ 0) (r : NvmeTcpRequest) :
    recvDataLoop (fuel + 1) len r =
      if (nextBio r).1 = 0 then
        ((recvDataLoop fuel (len - turnLen len r) (afterTurn len r)).1,
          (recvDataLoop fuel (len - turnLen len r) (afterTurn len r)).2.1,
          turnLen len r + (recvDataLoop fuel (len - turnLen len r) (afterTurn len r)).2.2)
      else ((nextBio r).1, (nextBio r).2, 0) := by
  rw [recvDataLoop, if_neg hlen]
  unfold afterTurn turnLen
  dsimp only
  rw [ite_not]

theorem turn_lt (hlen : len ≠ 0) (h : (nextBio r).1 = 0) :
    len - turnLen len r + (afterTurn len r).currBio.length < len + r.currBio.length := by
  unfold afterTurn turnLen
  dsimp only
  rcases nextBio_cases h with ⟨hcount, heq⟩ | hlt
  · rw [heq]
    omega
  · omega

theorem recvDataLoop_fuel (f g : ℕ) (hf : len + r.currBio.length < f)
    (hg : len + r.currBio.length < g) :
    recvDataLoop f len r = recvDataLoop g len r := by
  induction f generalizing g len r with
  | zero => omega
  | succ f ih =>
    obtain ⟨g, rfl⟩ : ∃ g', g = g' + 1 := ⟨g - 1, by omega⟩
    by_cases hlen : len = 0
    · rw [hlen, recvDataLoop, recvDataLoop, if_pos rfl, if_pos rfl]
    · rw [recvDataLoop_succ f hlen, recvDataLoop_succ g hlen]
      by_cases h : (nextBio r).1 = 0
      · have hlt := turn_lt hlen h
        rw [if_pos h, if_pos h, ih g (by omega) (by omega)]
      · rw [if_neg h, if_neg h]

theorem copyOut_zero (r : NvmeTcpRequest) : copyOut 0 r = (0, r, 0) := by
  rw [copyOut, recvDataLoop, if_pos rfl]

theorem copyOut_full (hlen : len ≠ 0) (h : ¬ (nextBio r).1 = 0) :
    copyOut len r = ((nextBio r).1, (nextBio r).2, 0) := by
  rw [copyOut, recvDataLoop_succ _ hlen, if_neg h]

theorem copyOut_turn (hlen : len ≠ 0) (h : (nextBio r).1 = 0) :
    copyOut len r =
      ((copyOut (len - turnLen len r) (afterTurn len r)).1,
        (copyOut (len - turnLen len r) (afterTurn len r)).2.1,
        turnLen len r + (copyOut (len - turnLen len r) (afterTurn len r)).2.2) := by
  have hlt := turn_lt hlen h
  have hfuel := recvDataLoop_fuel (len + r.currBio.length)
    (len - turnLen len r + (afterTurn len r).currBio.length + 1) hlt (Nat.lt_succ_self _)
  rw [copyOut, recvDataLoop_succ _ hlen, if_pos h, hfuel]
  rfl

theorem copyOut_induction {P : ℕ → NvmeTcpRequest → Prop} (zero : ∀ r, P 0 r)
    (full : ∀ len r, len ≠ 0 → ¬ (nextBio r).1 = 0 → P len r)
    (turn : ∀ len r, len ≠ 0 → (nextBio r).1 = 0 → P (len - turnLen len r) (afterTurn len r) →
      P len r)
    (len : ℕ) (r : NvmeTcpRequest) : P len r := by
  induction hk : len + r.currBio.length using Nat.strong_induction_on generalizing len r with
  | _ k ih =>
    by_cases hlen : len = 0
    · exact hlen ▸ zero r
    · by_cases hbio : (nextBio r).1 = 0
      · exact turn len r hlen hbio (ih _ (hk ▸ turn_lt hlen hbio) _ _ rfl)
      · exact full len r hlen hbio

theorem copyOut_copied (len : ℕ) (r : NvmeTcpRequest) :
    (copyOut len r).2.2 ≤ len ∧ ((copyOut len r).1 = 0 → (copyOut len r).2.2 = len) := by
  induction len, r using copyOut_induction with
  | zero r => rw [copyOut_zero]; exact ⟨le_rfl, fun _ => rfl⟩
  | full len r hlen hbio =>
    rw [copyOut_full hlen hbio]; exact ⟨Nat.zero_le _, fun h => absurd h hbio⟩
  | turn len r hlen hbio ih =>
    have hle : turnLen len r ≤ len := Nat.min_le_left _ _
    rw [copyOut_turn hlen hbio]
    dsimp only
    refine ⟨by omega, fun h => ?_⟩
    have := ih.2 h
    omega

theorem nextBio_rq (r : NvmeTcpRequest) : (nextBio r).2.rq = r.rq := by
  unfold nextBio
  dsimp only
  split_ifs <;> rfl

theorem nextBio_le (r : NvmeTcpRequest) : (nextBio r).1 ≤ 0 := by
  unfold nextBio
  dsimp only
  split_ifs
  · exact bot_le
  · exact WithBot.coe_le_coe.2 (by decide)
  · exact le_rfl
  · exact le_rfl

theorem copyOut_le (len : ℕ) (r : NvmeTcpRequest) : (copyOut len r).1 ≤ 0 := by
  induction len, r using copyOut_induction with
  | zero r => rw [copyOut_zero]
  | full len r hlen hbio => rw [copyOut_full hlen hbio]; exact nextBio_le r
  | turn len r hlen hbio ih => rw [copyOut_turn hlen hbio]; exact ih

theorem nextBio_bios (hbios : r.currBio ≠ []) :
    (nextBio r).1 ≠ ⊥ ∧ ((nextBio r).1 = 0 → (nextBio r).2.currBio ≠ []) := by
  unfold nextBio
  dsimp only
  split_ifs with h0 hnil
  · exact ⟨WithBot.coe_ne_bot, nofun⟩
  · exact ⟨WithBot.zero_ne_bot, fun _ => hnil⟩
  · exact ⟨WithBot.zero_ne_bot, fun _ => hbios⟩

theorem copyOut_bios (len : ℕ) (r : NvmeTcpRequest) (hbios : r.currBio ≠ []) :
    (copyOut len r).1 ≠ ⊥ ∧
      ((copyOut len r).1 = 0 → (copyOut len r).2.1.currBio ≠ [] ∧
      (copyOut len r).2.1.rq = r.rq) := by
  induction len, r using copyOut_induction with
  | zero r => rw [copyOut_zero]; exact ⟨WithBot.zero_ne_bot, fun _ => ⟨hbios, rfl⟩⟩
  | full len r hlen hbio =>
    rw [copyOut_full hlen hbio]
    exact ⟨(nextBio_bios hbios).1, fun h => absurd h hbio⟩
  | turn len r hlen hbio ih =>
    obtain ⟨hret, hkept⟩ := ih ((nextBio_bios hbios).2 hbio)
    rw [copyOut_turn hlen hbio]
    refine ⟨hret, fun h => ⟨(hkept h).1, (hkept h).2.trans ?_⟩⟩
    exact nextBio_rq r

theorem copyOut_null (hnil : r.currBio = []) (hlt : r.iter.count < len) :
    (copyOut len r).1 = ⊥ := by
  have hfull : ∀ {len : ℕ} {r : NvmeTcpRequest}, r.currBio = [] → r.iter.count = 0 → len ≠ 0 →
      (copyOut len r).1 = ⊥ := by
    intro len r hnil h0 hlen
    have hnext : nextBio r = (⊥, r) := by rw [nextBio, if_pos h0, if_pos hnil]
    rw [copyOut_full hlen (by rw [hnext]; exact WithBot.bot_ne_zero), hnext]
  by_cases h0 : r.iter.count = 0
  · exact hfull hnil h0 (by omega)
  · have hnext : nextBio r = (0, r) := by rw [nextBio, if_neg h0]
    have hturn : turnLen len r = r.iter.count := by
      rw [turnLen, hnext]
      exact Nat.min_eq_right hlt.le
    have hafter : (afterTurn len r).iter.count = 0 := by
      rw [afterTurn, hturn, hnext]
      exact (IovIter.advance_count _ _).trans (Nat.sub_self _)
    have hbios : (afterTurn len r).currBio = [] := by
      rw [afterTurn, hnext]
      exact hnil
    rw [copyOut_turn (by omega) (by rw [hnext])]
    exact hfull hbios hafter (by omega)

theorem afterTurn_add (m : ℕ) (hroom : x < (nextBio r).2.iter.count) :
    turnLen (x + m) r = x + turnLen m (afterTurn x r) ∧
      afterTurn (x + m) r = afterTurn m (afterTurn x r) ∧ (nextBio (afterTurn x r)).1 = 0 := by
  have hlen : turnLen x r = x := Nat.min_eq_left hroom.le
  have hcount : (afterTurn x r).iter.count = (nextBio r).2.iter.count - x := by
    rw [afterTurn, hlen]
    exact IovIter.advance_count _ _
  have hnext : nextBio (afterTurn x r) = (0, afterTurn x r) := by
    rw [nextBio, if_neg (by omega)]
  have hturn : turnLen m (afterTurn x r) = min m ((nextBio r).2.iter.count - x) := by
    rw [turnLen, hnext, hcount]
  have hadd : turnLen (x + m) r = x + turnLen m (afterTurn x r) := by
    rw [hturn, turnLen]
    omega
  have hmore : afterTurn m (afterTurn x r) =
      { afterTurn x r with iter := (afterTurn x r).iter.advance (turnLen m (afterTurn x r)) } := by
    conv_lhs => rw [afterTurn, hnext]
  have hiter : (afterTurn x r).iter = (nextBio r).2.iter.advance x := by
    rw [afterTurn, hlen]
  refine ⟨hadd, ?_, by rw [hnext]⟩
  rw [hmore, hiter, IovIter.advance_add, ← hadd]
  rfl

/-- Copying `x` bytes and then `m` more is copying `x + m` bytes. -/
theorem copyOut_add (x m : ℕ) (r : NvmeTcpRequest) (h : (copyOut x r).1 = 0) :
    copyOut (x + m) r =
      ((copyOut m (copyOut x r).2.1).1, (copyOut m (copyOut x r).2.1).2.1,
        x + (copyOut m (copyOut x r).2.1).2.2) := by
  induction x, r using copyOut_induction with
  | zero r => simp [copyOut_zero]
  | full x r hx hbio =>
    rw [copyOut_full hx hbio] at h
    exact absurd h hbio
  | turn x r hx hbio ih =>
    rw [copyOut_turn hx hbio] at h ⊢
    dsimp only at h ⊢
    by_cases hroom : x < (nextBio r).2.iter.count
    · -- the first bytes stop inside the iterator's room
      have hlen : turnLen x r = x := Nat.min_eq_left hroom.le
      rw [hlen, Nat.sub_self, copyOut_zero]
      dsimp only
      by_cases hm : m = 0
      · subst hm
        rw [copyOut_zero, Nat.add_zero, copyOut_turn hx hbio, hlen, Nat.sub_self, copyOut_zero]
        rfl
      · obtain ⟨hadd, hafter, hbio'⟩ := afterTurn_add m hroom
        rw [copyOut_turn (by omega) hbio, copyOut_turn hm hbio', hadd, hafter, Nat.add_sub_add_left]
        dsimp only
        rw [Nat.add_assoc]
    · have hlen : turnLen x r = (nextBio r).2.iter.count := Nat.min_eq_right (by omega)
      have hlen' : turnLen (x + m) r = turnLen x r := by
        rw [hlen]
        exact Nat.min_eq_right (by omega)
      have hafter : afterTurn (x + m) r = afterTurn x r := by rw [afterTurn, hlen', afterTurn]
      have hle : turnLen x r ≤ x := Nat.min_le_left _ _
      have hsub : x + m - turnLen x r = x - turnLen x r + m := by omega
      rw [copyOut_turn (by omega) hbio, hlen', hafter, hsub, ih h]
      dsimp only
      congr 2
      omega

end Copy

/-- The buffers have their sizes, and a header or a digest that is coming in has its place. -/
structure RecvOk (c : Config) (q : RecvQueue) : Prop where
  pdu : q.pdu.length = 24 + nvmeTcpHdgstLen c
  header : q.pduOffset + q.pduRemaining = 24 + nvmeTcpHdgstLen c
  ddgst : q.recvDdgst.length = NVME_TCP_DIGEST_LENGTH
  digest : q.ddgstRemaining ≤ NVME_TCP_DIGEST_LENGTH

section Pieces

variable {c : Config} {q : RecvQueue} {a b : List Byte}

def headerBytes (b : List Byte) (q : RecvQueue) : RecvQueue :=
  { q with
    pdu := writeAt q.pdu q.pduOffset b
    pduRemaining := q.pduRemaining - b.length
    pduOffset := q.pduOffset + b.length }

theorem recvPdu_short (c : Config) (h : b.length < q.pduRemaining) :
    nvmeTcpRecvPdu c b q = (0, headerBytes b q, []) := by
  have hmin : min b.length q.pduRemaining = b.length := Nat.min_eq_left h.le
  unfold nvmeTcpRecvPdu
  dsimp only
  rw [hmin, List.take_length, List.drop_length, if_pos (by omega)]
  rfl

theorem recvPdu_whole (c : Config) (h : q.pduRemaining ≤ b.length) :
    nvmeTcpRecvPdu c b q =
      (↑(recvHeader c (headerBytes (b.take q.pduRemaining) q)).1,
        (recvHeader c (headerBytes (b.take q.pduRemaining) q)).2, b.drop q.pduRemaining) := by
  have hmin : min b.length q.pduRemaining = q.pduRemaining := Nat.min_eq_right h
  have hlen : (b.take q.pduRemaining).length = q.pduRemaining := by simp [h]
  unfold nvmeTcpRecvPdu headerBytes
  dsimp only
  rw [hmin, hlen, if_neg (by omega)]

theorem headerBytes_append (hq : q.pduOffset ≤ q.pdu.length) (a b : List Byte) :
    headerBytes b (headerBytes a q) = headerBytes (a ++ b) q := by
  unfold headerBytes
  simp only [writeAt_append hq, List.length_append, Nat.sub_sub, Nat.add_assoc]

/-- A piece is taken as a whole, or it goes on with more bytes. -/
def GoesOn (piece : List Byte → RecvQueue → Ret × RecvQueue × List Byte) (q : RecvQueue)
    (a b : List Byte) : Prop :=
  piece (a ++ b) q = ((piece a q).1, (piece a q).2.1, (piece a q).2.2 ++ b) ∨
    (piece a q).2.2 = [] ∧ (piece a q).2.1.nvmeTcpRecvState = q.nvmeTcpRecvState ∧
      piece (a ++ b) q = piece b (piece a q).2.1

theorem recvPdu_more (hq : RecvOk c q) (hlt : a.length < q.pduRemaining) (b : List Byte) :
    nvmeTcpRecvPdu c (a ++ b) q = nvmeTcpRecvPdu c b (headerBytes a q) := by
  have hoff : q.pduOffset ≤ q.pdu.length := by
    have := hq.pdu
    have := hq.header
    omega
  have hrem : (headerBytes a q).pduRemaining = q.pduRemaining - a.length := rfl
  rcases Nat.lt_or_ge b.length (q.pduRemaining - a.length) with hlt' | hge'
  · rw [recvPdu_short c (by rw [List.length_append]; omega), recvPdu_short c (hrem ▸ hlt'),
      headerBytes_append hoff]
  · rw [recvPdu_whole c (by rw [List.length_append]; omega), recvPdu_whole c (hrem ▸ hge'),
      headerBytes_append hoff, hrem, List.take_append, List.take_of_length_le hlt.le,
      List.drop_append, List.drop_eq_nil_of_le hlt.le, List.nil_append]

theorem recvPdu_append (c : Config) (hge : q.pduRemaining ≤ a.length) (b : List Byte) :
    nvmeTcpRecvPdu c (a ++ b) q =
      ((nvmeTcpRecvPdu c a q).1, (nvmeTcpRecvPdu c a q).2.1, (nvmeTcpRecvPdu c a q).2.2 ++ b) := by
  rw [recvPdu_whole c (by rw [List.length_append]; omega), recvPdu_whole c hge,
    List.take_append_of_le_length hge, List.drop_append_of_le_length hge]

theorem recvPdu_goesOn (hq : RecvOk c q) (hstate : q.nvmeTcpRecvState = .pdu) (a b : List Byte) :
    GoesOn (nvmeTcpRecvPdu c) q a b := by
  rcases Nat.lt_or_ge a.length q.pduRemaining with hlt | hge
  · right
    have hrem : (headerBytes a q).pduRemaining = q.pduRemaining - a.length := rfl
    rw [recvPdu_more hq hlt, recvPdu_short c hlt]
    refine ⟨rfl, ?_, rfl⟩
    rw [hstate, nvmeTcpRecvState]
    exact if_pos (by rw [hrem]; omega)
  · exact .inl (recvPdu_append c hge b)

def ddgstBytes (b : List Byte) (q : RecvQueue) : RecvQueue :=
  { q with
    recvDdgst := writeAt q.recvDdgst (NVME_TCP_DIGEST_LENGTH - q.ddgstRemaining) b
    ddgstRemaining := q.ddgstRemaining - b.length }

def ddgstEnd (c : Config) (q : RecvQueue) : Ret × RecvQueue :=
  if q.recvDdgst ≠ q.expDdgst then (↑(- EIO), q)
  else if (NvmeTcpXferPdu.decode q.pdu).hdr.flags &&& NVME_TCP_F_DATA_SUCCESS ≠ 0 ∧
    q.rqs (NvmeTcpXferPdu.decode q.pdu).commandId = none then (⊥, q)
  else (0, (endIfSuccess (NvmeTcpXferPdu.decode q.pdu) q).nvmeTcpInitRecvCtx c)

theorem recvDdgst_short (c : Config) (h : b.length < q.ddgstRemaining) :
    nvmeTcpRecvDdgst c b q = (0, ddgstBytes b q, []) := by
  have hmin : min b.length q.ddgstRemaining = b.length := Nat.min_eq_left h.le
  unfold nvmeTcpRecvDdgst
  dsimp only
  rw [hmin, List.take_length, List.drop_length, if_pos (by omega)]
  rfl

theorem recvDdgst_whole (c : Config) (h : q.ddgstRemaining ≤ b.length) :
    nvmeTcpRecvDdgst c b q =
      ((ddgstEnd c (ddgstBytes (b.take q.ddgstRemaining) q)).1,
        (ddgstEnd c (ddgstBytes (b.take q.ddgstRemaining) q)).2,
        b.drop q.ddgstRemaining) := by
  have hmin : min b.length q.ddgstRemaining = q.ddgstRemaining := Nat.min_eq_right h
  have hlen : (b.take q.ddgstRemaining).length = q.ddgstRemaining := by simp [h]
  unfold nvmeTcpRecvDdgst ddgstEnd ddgstBytes
  dsimp only
  rw [hmin, hlen, if_neg (by omega)]
  split_ifs <;> rfl

theorem ddgstBytes_append (hq : RecvOk c q) (hlt : a.length < q.ddgstRemaining) (b : List Byte) :
    ddgstBytes b (ddgstBytes a q) = ddgstBytes (a ++ b) q := by
  have hrem := hq.digest
  have hoff : NVME_TCP_DIGEST_LENGTH - (q.ddgstRemaining - a.length) =
      NVME_TCP_DIGEST_LENGTH - q.ddgstRemaining + a.length := by omega
  have hle : NVME_TCP_DIGEST_LENGTH - q.ddgstRemaining ≤ q.recvDdgst.length := by
    rw [hq.ddgst]
    exact Nat.sub_le _ _
  unfold ddgstBytes
  simp only [hoff, writeAt_append hle, List.length_append, Nat.sub_sub]

theorem recvDdgst_more (hq : RecvOk c q) (hlt : a.length < q.ddgstRemaining) (b : List Byte) :
    nvmeTcpRecvDdgst c (a ++ b) q = nvmeTcpRecvDdgst c b (ddgstBytes a q) := by
  have hrem : (ddgstBytes a q).ddgstRemaining = q.ddgstRemaining - a.length := rfl
  rcases Nat.lt_or_ge b.length (q.ddgstRemaining - a.length) with hlt' | hge'
  · rw [recvDdgst_short c (by rw [List.length_append]; omega), recvDdgst_short c (hrem ▸ hlt'),
      ddgstBytes_append hq hlt]
  · rw [recvDdgst_whole c (by rw [List.length_append]; omega), recvDdgst_whole c (hrem ▸ hge'),
      ddgstBytes_append hq hlt, hrem, List.take_append, List.take_of_length_le hlt.le,
      List.drop_append, List.drop_eq_nil_of_le hlt.le, List.nil_append]

theorem recvDdgst_append (c : Config) (hge : q.ddgstRemaining ≤ a.length) (b : List Byte) :
    nvmeTcpRecvDdgst c (a ++ b) q =
      ((nvmeTcpRecvDdgst c a q).1, (nvmeTcpRecvDdgst c a q).2.1,
        (nvmeTcpRecvDdgst c a q).2.2 ++ b) := by
  rw [recvDdgst_whole c (by rw [List.length_append]; omega), recvDdgst_whole c hge,
    List.take_append_of_le_length hge, List.drop_append_of_le_length hge]

theorem pduRemaining_of_data (hstate : q.nvmeTcpRecvState = .data) : q.pduRemaining = 0 := by
  unfold nvmeTcpRecvState at hstate
  split_ifs at hstate with h1 h2
  exact not_not.1 h1

theorem pduRemaining_of_ddgst (hstate : q.nvmeTcpRecvState = .ddgst) : q.pduRemaining = 0 := by
  unfold nvmeTcpRecvState at hstate
  split_ifs at hstate with h0
  exact not_not.1 h0

theorem recvDdgst_goesOn (hq : RecvOk c q) (hstate : q.nvmeTcpRecvState = .ddgst)
    (a b : List Byte) :
    GoesOn (nvmeTcpRecvDdgst c) q a b := by
  rcases Nat.lt_or_ge a.length q.ddgstRemaining with hlt | hge
  · right
    have hrem : (ddgstBytes a q).ddgstRemaining = q.ddgstRemaining - a.length := rfl
    have hpdu : q.pduRemaining = 0 := pduRemaining_of_ddgst hstate
    rw [recvDdgst_more hq hlt, recvDdgst_short c hlt]
    refine ⟨rfl, ?_, rfl⟩
    rw [hstate, nvmeTcpRecvState,
      if_neg (not_not.2 (show (ddgstBytes a q).pduRemaining = 0 from hpdu))]
    exact if_pos (by rw [hrem]; omega)
  · exact .inl (recvDdgst_append c hge b)

def storeData (c : Config) (n : ℕ) (b : List Byte) (r : NvmeTcpRequest) (q : RecvQueue) :
    RecvQueue :=
  { q.setRq (NvmeTcpXferPdu.decode q.pdu).commandId r with
    stored := Function.update q.stored (NvmeTcpXferPdu.decode q.pdu).commandId
      (q.stored (NvmeTcpXferPdu.decode q.pdu).commandId ++ b.take n)
    rcvHash := if c.dataDigest then q.rcvHash ++ b.take n else q.rcvHash
    dataRemaining := q.dataRemaining - n }

def dataEnd (c : Config) (q : RecvQueue) : RecvQueue :=
  if c.dataDigest then
    { q with expDdgst := c.crc q.rcvHash, ddgstRemaining := NVME_TCP_DIGEST_LENGTH }
  else (endIfSuccess (NvmeTcpXferPdu.decode q.pdu) q).nvmeTcpInitRecvCtx c

variable {r : NvmeTcpRequest}

theorem recvData_eq (c : Config) (hr : q.rqs (NvmeTcpXferPdu.decode q.pdu).commandId = some r)
    {len : ℕ} (hlen : len = min b.length q.dataRemaining) :
    nvmeTcpRecvData c b q =
      if (copyOut len r).1 = ⊥ then
        (⊥, storeData c (copyOut len r).2.2 b (copyOut len r).2.1 q, b.drop (copyOut len r).2.2)
      else if (copyOut len r).1 ≠ 0 then
        ((copyOut len r).1, (storeData c (copyOut len r).2.2 b (copyOut len r).2.1
          q).nvmeTcpInitRecvCtx c, b.drop (copyOut len r).2.2)
      else if q.dataRemaining - (copyOut len r).2.2 ≠ 0 then
        (0, storeData c (copyOut len r).2.2 b (copyOut len r).2.1 q, b.drop (copyOut len r).2.2)
      else
        (0, dataEnd c (storeData c (copyOut len r).2.2 b (copyOut len r).2.1 q),
          b.drop (copyOut len r).2.2) := by
  subst hlen
  unfold nvmeTcpRecvData
  dsimp only
  rw [hr]
  dsimp only
  by_cases hnull : (copyOut (min b.length q.dataRemaining) r).1 = ⊥
  · rw [if_pos hnull]
    exact if_pos hnull
  rw [if_neg hnull]
  refine (if_neg hnull).trans ?_
  by_cases hroom : (copyOut (min b.length q.dataRemaining) r).1 ≠ 0
  · rw [if_pos hroom]
    exact if_pos hroom
  · rw [if_neg hroom]
    refine (if_neg hroom).trans ?_
    by_cases hmore : q.dataRemaining - (copyOut (min b.length q.dataRemaining) r).2.2 ≠ 0
    · rw [if_pos hmore]
      exact if_pos hmore
    · rw [if_neg hmore]
      exact (if_neg hmore).trans (apply_ite (fun q => ((0 : Ret), q, b.drop _)) _ _ _).symm

theorem storeData_add (c : Config) (a b : List Byte) (n : ℕ) (r r' : NvmeTcpRequest)
    (q : RecvQueue) :
    storeData c n b r' (storeData c a.length a r q) = storeData c (a.length + n) (a ++ b) r' q := by
  have htake : (a ++ b).take (a.length + n) = a ++ b.take n := by
    rw [List.take_append, List.take_of_length_le (Nat.le_add_right _ _), Nat.add_sub_cancel_left]
  unfold storeData RecvQueue.setRq
  simp only [htake, List.take_length, Function.update_idem, Function.update_self, Nat.sub_sub]
  split_ifs <;> simp [List.append_assoc]

theorem recvData_short (hr : q.rqs (NvmeTcpXferPdu.decode q.pdu).commandId = some r)
    (hlt : a.length < q.dataRemaining) (hroom : (copyOut a.length r).1 = 0) :
    nvmeTcpRecvData c a q = (0, storeData c a.length a (copyOut a.length r).2.1 q, []) := by
  have hcopied := (copyOut_copied a.length r).2 hroom
  rw [recvData_eq c hr (Nat.min_eq_left hlt.le).symm, if_neg (by simp [hroom]),
    if_neg (not_not.2 hroom), hcopied, if_pos (by omega), List.drop_length]

theorem recvData_more (hr : q.rqs (NvmeTcpXferPdu.decode q.pdu).commandId = some r)
    (hlt : a.length < q.dataRemaining) (hroom : (copyOut a.length r).1 = 0) (b : List Byte) :
    nvmeTcpRecvData c (a ++ b) q = nvmeTcpRecvData c b
      (storeData c a.length a (copyOut a.length r).2.1 q) := by
  have hr' : (storeData c a.length a (copyOut a.length r).2.1 q).rqs
      (NvmeTcpXferPdu.decode (storeData c a.length a (copyOut a.length r).2.1 q).pdu).commandId =
        some (copyOut a.length r).2.1 := Function.update_self _ _ _
  have hrem : (storeData c a.length a (copyOut a.length r).2.1 q).dataRemaining =
    q.dataRemaining - a.length := rfl
  have hlen : min (a ++ b).length q.dataRemaining = a.length + min b.length
      (q.dataRemaining - a.length) := by
    rw [List.length_append]
    omega
  rw [recvData_eq c hr hlen.symm,
    recvData_eq c hr' (show min b.length (q.dataRemaining - a.length) = _ from rfl),
    copyOut_add _ _ _ hroom]
  dsimp only
  rw [storeData_add, hrem, Nat.sub_sub, List.drop_append,
    List.drop_eq_nil_of_le (Nat.le_add_right _ _), List.nil_append, Nat.add_sub_cancel_left]

theorem recvData_append (c : Config) (hr : q.rqs (NvmeTcpXferPdu.decode q.pdu).commandId = some r)
    (hge : q.dataRemaining ≤ a.length) (b : List Byte) :
    nvmeTcpRecvData c (a ++ b) q =
      ((nvmeTcpRecvData c a q).1, (nvmeTcpRecvData c a q).2.1,
        (nvmeTcpRecvData c a q).2.2 ++ b) := by
  have hle := (copyOut_copied q.dataRemaining r).1
  rw [recvData_eq c hr (Nat.min_eq_right hge).symm,
    recvData_eq c hr (show q.dataRemaining = _ by rw [List.length_append]; omega)]
  have htake : (a ++ b).take (copyOut q.dataRemaining r).2.2 = a.take
      (copyOut q.dataRemaining r).2.2 :=
    List.take_append_of_le_length (by omega)
  have hstore : storeData c (copyOut q.dataRemaining r).2.2 (a ++ b)
    (copyOut q.dataRemaining r).2.1 q =
      storeData c (copyOut q.dataRemaining r).2.2 a (copyOut q.dataRemaining r).2.1 q := by
    unfold storeData
    rw [htake]
  rw [hstore, List.drop_append_of_le_length (by omega)]
  split_ifs <;> rfl

theorem recvData_room (hok : (nvmeTcpRecvData c a q).1 = 0) :
    ∃ r, q.rqs (NvmeTcpXferPdu.decode q.pdu).commandId = some r ∧
      (copyOut (min a.length q.dataRemaining) r).1 = 0 := by
  rcases hr : q.rqs (NvmeTcpXferPdu.decode q.pdu).commandId with _ | r
  · unfold nvmeTcpRecvData at hok
    dsimp only at hok
    rw [hr] at hok
    cases hok
  · refine ⟨r, rfl, ?_⟩
    by_contra hno
    rw [recvData_eq c hr rfl] at hok
    split_ifs at hok with hnull
    · cases hok
    · exact hno hok

theorem recvData_goesOn (a b : List Byte) (hok : (nvmeTcpRecvData c a q).1 = 0) :
    GoesOn (nvmeTcpRecvData c) q a b := by
  obtain ⟨r, hr, hroom⟩ := recvData_room hok
  rcases Nat.lt_or_ge a.length q.dataRemaining with hlt | hge
  · rw [Nat.min_eq_left hlt.le] at hroom
    right
    rw [recvData_more hr hlt hroom, recvData_short hr hlt hroom]
    exact ⟨rfl, rfl, rfl⟩
  · exact .inl (recvData_append c hr hge b)

def pieceOf (c : Config) : RecvState → List Byte → RecvQueue → Ret × RecvQueue × List Byte
  | .pdu => nvmeTcpRecvPdu c
  | .ddgst => nvmeTcpRecvDdgst c
  | .data => nvmeTcpRecvData c

theorem recvPiece_eq (c : Config) (b : List Byte) (q : RecvQueue) :
    recvPiece c b q = pieceOf c q.nvmeTcpRecvState b q := by
  unfold recvPiece
  cases q.nvmeTcpRecvState <;> rfl

theorem pieceOf_goesOn (hq : RecvOk c q) (a b : List Byte) (hok : (recvPiece c a q).1 = 0) :
    GoesOn (pieceOf c q.nvmeTcpRecvState) q a b := by
  rw [recvPiece_eq] at hok
  cases hs : q.nvmeTcpRecvState with
  | pdu => exact recvPdu_goesOn hq hs a b
  | ddgst => exact recvDdgst_goesOn hq hs a b
  | data =>
    rw [hs] at hok
    exact recvData_goesOn a b hok

/-- With more bytes at hand, a turn ends where it did, or goes on as the next one would have. -/
theorem recvPiece_append (hq : RecvOk c q) (a b : List Byte) (hok : (recvPiece c a q).1 = 0) :
    recvPiece c (a ++ b) q = (0, (recvPiece c a q).2.1, (recvPiece c a q).2.2 ++ b) ∨
      (recvPiece c a q).2.2 = [] ∧
        recvPiece c (a ++ b) q = recvPiece c b (recvPiece c a q).2.1 := by
  have hgo := pieceOf_goesOn hq a b hok
  rw [recvPiece_eq c a] at hok ⊢
  rw [recvPiece_eq c (a ++ b)]
  rcases hgo with hwhole | ⟨hnil, hsame, hmore⟩
  · exact .inl (by rw [hwhole, hok])
  · exact .inr ⟨hnil, by rw [hmore, recvPiece_eq c b, hsame]⟩

end Pieces

section Kept

variable {c : Config} {q q' : RecvQueue} {b : List Byte}

def SameBuffers (q q' : RecvQueue) : Prop :=
  (q'.pdu = q.pdu ∧ q'.pduOffset = q.pduOffset ∧ q'.pduRemaining = q.pduRemaining) ∧
    q'.recvDdgst = q.recvDdgst ∧ q'.ddgstRemaining = q.ddgstRemaining

theorem RecvOk.same (hq : RecvOk c q) (h : SameBuffers q q') : RecvOk c q' := by
  obtain ⟨⟨h1, h2, h3⟩, h4, h5⟩ := h
  exact ⟨h1 ▸ hq.pdu, by rw [h2, h3]; exact hq.header, h4 ▸ hq.ddgst, h5 ▸ hq.digest⟩

theorem RecvOk.initRecvCtx (hq : RecvOk c q) : RecvOk c (q.nvmeTcpInitRecvCtx c) :=
  ⟨hq.pdu, Nat.zero_add _, hq.ddgst, Nat.zero_le _⟩

/-- A handler reports no error or a negative number, and leaves the buffers alone. -/
theorem handleC2hData_kept (pdu : NvmeTcpDataPdu) (q : RecvQueue) :
    (nvmeTcpHandleC2hData pdu q).1 ≤ 0 ∧ SameBuffers q (nvmeTcpHandleC2hData pdu q).2 := by
  unfold nvmeTcpHandleC2hData
  split
  · exact ⟨by dsimp only; decide, ⟨rfl, rfl, rfl⟩, rfl, rfl⟩
  · split_ifs <;> exact ⟨by dsimp only; decide, ⟨rfl, rfl, rfl⟩, rfl, rfl⟩

theorem handleComp_kept (c : Config) (cqe : NvmeCompletion) (q : RecvQueue) :
    (nvmeTcpHandleComp c cqe q).1 ≤ 0 ∧ SameBuffers q (nvmeTcpHandleComp c cqe q).2 := by
  unfold nvmeTcpHandleComp nvmeTcpProcessNvmeCqe
  split_ifs
  · exact ⟨le_rfl, ⟨rfl, rfl, rfl⟩, rfl, rfl⟩
  · split <;> exact ⟨by dsimp only; decide, ⟨rfl, rfl, rfl⟩, rfl, rfl⟩

theorem handleR2t_kept (c : Config) (pdu : NvmeTcpR2tPdu) (q : RecvQueue) :
    (nvmeTcpHandleR2t c pdu q).1 ≤ 0 ∧ SameBuffers q (nvmeTcpHandleR2t c pdu q).2 := by
  unfold nvmeTcpHandleR2t
  split
  · exact ⟨by dsimp only; decide, ⟨rfl, rfl, rfl⟩, rfl, rfl⟩
  · split <;> exact ⟨by dsimp only; decide, ⟨rfl, rfl, rfl⟩, rfl, rfl⟩

theorem verifyHdgst_le (c : Config) (pdu : List Byte) : nvmeTcpVerifyHdgst c pdu ≤ 0 := by
  unfold nvmeTcpVerifyHdgst
  dsimp only
  split_ifs <;> decide

theorem checkDdgst_le (c : Config) (pdu : List Byte) : nvmeTcpCheckDdgst c pdu ≤ 0 := by
  unfold nvmeTcpCheckDdgst
  dsimp only
  split_ifs <;> decide

theorem recvHeader_kept (hq : RecvOk c q) :
    (recvHeader c q).1 ≤ 0 ∧ RecvOk c (recvHeader c q).2 := by
  have hverify : (if c.hdrDigest then nvmeTcpVerifyHdgst c q.pdu else 0) ≤ 0 := by
    split_ifs
    · exact verifyHdgst_le c q.pdu
    · exact le_rfl
  have hcheck : (if c.dataDigest then nvmeTcpCheckDdgst c q.pdu else 0) ≤ 0 := by
    split_ifs
    · exact checkDdgst_le c q.pdu
    · exact le_rfl
  have hhash : RecvOk c (if c.dataDigest then { q with rcvHash := [] } else q) := by
    split_ifs
    · exact hq.same ⟨⟨rfl, rfl, rfl⟩, rfl, rfl⟩
    · exact hq
  unfold recvHeader
  dsimp only
  by_cases h1 : (if c.hdrDigest then nvmeTcpVerifyHdgst c q.pdu else 0) ≠ 0
  · rw [if_pos h1]
    exact ⟨hverify, hq⟩
  · rw [if_neg h1]
    by_cases h2 : (if c.dataDigest then nvmeTcpCheckDdgst c q.pdu else 0) ≠ 0
    · rw [if_pos h2]
      exact ⟨hcheck, hq⟩
    · rw [if_neg h2]
      generalize (if c.dataDigest then { q with rcvHash := [] } else q) = q₁ at hhash ⊢
      by_cases h3 : (NvmeTcpHdr.decode q.pdu).type = nvmeTcpC2hData
      · rw [if_pos h3]
        have h := handleC2hData_kept (NvmeTcpXferPdu.decode q₁.pdu) q₁
        exact ⟨h.1, hhash.same h.2⟩
      · rw [if_neg h3]
        by_cases h4 : (NvmeTcpHdr.decode q.pdu).type = nvmeTcpRsp
        · rw [if_pos h4]
          have h := handleComp_kept c (NvmeCompletion.decodeAt q₁.pdu 8) (q₁.nvmeTcpInitRecvCtx c)
          exact ⟨h.1, hhash.initRecvCtx.same h.2⟩
        · rw [if_neg h4]
          by_cases h5 : (NvmeTcpHdr.decode q.pdu).type = nvmeTcpR2t
          · rw [if_pos h5]
            have h := handleR2t_kept c (NvmeTcpXferPdu.decode q₁.pdu) (q₁.nvmeTcpInitRecvCtx c)
            exact ⟨h.1, hhash.initRecvCtx.same h.2⟩
          · rw [if_neg h5]
            exact ⟨by dsimp only; decide, hhash⟩

theorem endIfSuccess_same (pdu : NvmeTcpDataPdu) (q : RecvQueue) :
    SameBuffers q (endIfSuccess pdu q) := by
  unfold endIfSuccess
  split_ifs <;> exact ⟨⟨rfl, rfl, rfl⟩, rfl, rfl⟩

theorem RecvOk.headerBytes (hq : RecvOk c q) (hle : b.length ≤ q.pduRemaining) :
    RecvOk c (headerBytes b q) := by
  have hpdu := hq.pdu
  have hhdr := hq.header
  refine ⟨?_, ?_, hq.ddgst, hq.digest⟩
  · exact (writeAt_length (by omega)).trans hpdu
  · change q.pduOffset + b.length + (q.pduRemaining - b.length) = _
    omega

theorem RecvOk.ddgstBytes (hq : RecvOk c q) (hle : b.length ≤ q.ddgstRemaining) :
    RecvOk c (ddgstBytes b q) := by
  have hlen := hq.ddgst
  have hrem := hq.digest
  exact ⟨hq.pdu, hq.header, (writeAt_length (by omega)).trans hlen, (Nat.sub_le _ _).trans hrem⟩

theorem RecvOk.ddgstEnd (hq : RecvOk c q) : (ddgstEnd c q).1 ≤ 0 ∧ RecvOk c (ddgstEnd c q).2 := by
  unfold Host.ddgstEnd
  split_ifs
  · exact ⟨WithBot.coe_le_coe.2 (by decide), hq⟩
  · exact ⟨bot_le, hq⟩
  · exact ⟨le_rfl, (hq.same (endIfSuccess_same _ q)).initRecvCtx⟩

theorem RecvOk.dataEnd (hq : RecvOk c q) : RecvOk c (dataEnd c q) := by
  unfold Host.dataEnd
  split_ifs
  · exact ⟨hq.pdu, hq.header, hq.ddgst, le_rfl⟩
  · exact (hq.same (endIfSuccess_same _ q)).initRecvCtx

theorem recvPiece_kept (hq : RecvOk c q) (b : List Byte) :
    (recvPiece c b q).1 ≤ 0 ∧ RecvOk c (recvPiece c b q).2.1 := by
  rw [recvPiece_eq]
  cases q.nvmeTcpRecvState with
  | pdu =>
    rcases Nat.lt_or_ge b.length q.pduRemaining with hlt | hge
    · rw [pieceOf, recvPdu_short c hlt]
      exact ⟨le_rfl, hq.headerBytes hlt.le⟩
    · rw [pieceOf, recvPdu_whole c hge]
      have hkept := recvHeader_kept (hq.headerBytes (List.length_take_le q.pduRemaining b))
      exact ⟨WithBot.coe_le_coe.2 hkept.1, hkept.2⟩
  | ddgst =>
    rcases Nat.lt_or_ge b.length q.ddgstRemaining with hlt | hge
    · rw [pieceOf, recvDdgst_short c hlt]
      exact ⟨le_rfl, hq.ddgstBytes hlt.le⟩
    · rw [pieceOf, recvDdgst_whole c hge]
      exact (hq.ddgstBytes (List.length_take_le _ _)).ddgstEnd
  | data =>
    rw [pieceOf]
    rcases hr : q.rqs (NvmeTcpXferPdu.decode q.pdu).commandId with _ | r
    · unfold nvmeTcpRecvData
      dsimp only
      rw [hr]
      exact ⟨WithBot.coe_le_coe.2 (by decide), hq⟩
    · rw [recvData_eq c hr rfl]
      have hstore : RecvOk c (storeData c (copyOut (min b.length q.dataRemaining) r).2.2 b
        (copyOut (min b.length q.dataRemaining) r).2.1 q) := hq.same ⟨⟨rfl, rfl, rfl⟩, rfl, rfl⟩
      split_ifs
      · exact ⟨bot_le, hstore⟩
      · exact ⟨copyOut_le _ _, hstore.initRecvCtx⟩
      · exact ⟨le_rfl, hstore⟩
      · exact ⟨le_rfl, hstore.dataEnd⟩

end Kept

section Header

def headerCheck (c : Config) (pdu : List Byte) : ℤ :=
  if c.hdrDigest ∧ nvmeTcpVerifyHdgst c pdu ≠ 0 then nvmeTcpVerifyHdgst c pdu
  else if c.dataDigest then nvmeTcpCheckDdgst c pdu else 0

def clearHash (c : Config) (q : RecvQueue) : RecvQueue :=
  if c.dataDigest then { q with rcvHash := [] } else q

def handleHeader (c : Config) (q : RecvQueue) : ℤ × RecvQueue :=
  if (NvmeTcpHdr.decode q.pdu).type = nvmeTcpC2hData then nvmeTcpHandleC2hData
    (NvmeTcpXferPdu.decode q.pdu) q
  else if (NvmeTcpHdr.decode q.pdu).type = nvmeTcpRsp then
    nvmeTcpHandleComp c (NvmeCompletion.decodeAt q.pdu 8) (q.nvmeTcpInitRecvCtx c)
  else if (NvmeTcpHdr.decode q.pdu).type = nvmeTcpR2t then
    nvmeTcpHandleR2t c (NvmeTcpXferPdu.decode q.pdu) (q.nvmeTcpInitRecvCtx c)
  else (-EINVAL, q)

theorem clearHash_pdu (c : Config) (q : RecvQueue) : (clearHash c q).pdu = q.pdu := by
  unfold clearHash
  split_ifs <;> rfl

theorem recvHeader_eq (c : Config) (q : RecvQueue) :
    recvHeader c q =
      if headerCheck c q.pdu ≠ 0 then (headerCheck c q.pdu, q)
      else handleHeader c (clearHash c q) := by
  unfold recvHeader headerCheck handleHeader
  rw [clearHash_pdu]
  unfold clearHash
  cases c.hdrDigest <;> cases c.dataDigest <;> simp <;> split_ifs <;> rfl

variable {c : Config} {q : RecvQueue}

theorem handleHeader_c2h (h : (NvmeTcpHdr.decode q.pdu).type = nvmeTcpC2hData) :
    handleHeader c q = nvmeTcpHandleC2hData (NvmeTcpXferPdu.decode q.pdu) q := if_pos h

theorem handleHeader_rsp (h : (NvmeTcpHdr.decode q.pdu).type = nvmeTcpRsp) :
    handleHeader c q = nvmeTcpHandleComp c (NvmeCompletion.decodeAt q.pdu 8)
    (q.nvmeTcpInitRecvCtx c) := by
  rw [handleHeader, h, if_neg (by decide), if_pos rfl]

theorem handleHeader_r2t (h : (NvmeTcpHdr.decode q.pdu).type = nvmeTcpR2t) :
    handleHeader c q = nvmeTcpHandleR2t c (NvmeTcpXferPdu.decode q.pdu)
    (q.nvmeTcpInitRecvCtx c) := by
  rw [handleHeader, h, if_neg (by decide), if_neg (by decide), if_pos rfl]

variable {r r' : NvmeTcpRequest}

theorem handleComp_of_rq {cqe : NvmeCompletion} (hr : q.rqs cqe.commandId = some r)
    (htag : c.qid = 0 → cqe.commandId < NVME_AQ_BLK_MQ_DEPTH) :
    nvmeTcpHandleComp c cqe q = (0, q.endRequest cqe.commandId cqe.status cqe.result) := by
  have hno : ¬ (c.qid = 0 ∧ NVME_AQ_BLK_MQ_DEPTH ≤ cqe.commandId) := fun hh =>
    absurd (htag hh.1) (UInt16.not_lt.2 hh.2)
  rw [nvmeTcpHandleComp, if_neg hno, nvmeTcpProcessNvmeCqe, hr]

theorem handleR2t_of_rq {pdu : NvmeTcpR2tPdu} (hr : q.rqs pdu.commandId = some r)
    (hset : nvmeTcpSetupH2cDataPdu c r pdu = (true, r')) :
    nvmeTcpHandleR2t c pdu q =
      (0, (q.setRq pdu.commandId { r' with state := .h2cPdu, offset := 0 }).tell
        (.queueRequest pdu.commandId)) := by
  rw [nvmeTcpHandleR2t, hr]
  dsimp only
  rw [hset]

theorem handleC2hData_of_rq {pdu : NvmeTcpDataPdu} (hr : q.rqs pdu.commandId = some r)
    (hpayload : r.rq.blkRqPayloadBytes ≠ 0) (hlast : pdu.hdr.flags &&& NVME_TCP_F_DATA_LAST ≠ 0) :
    nvmeTcpHandleC2hData pdu q = (0, { q with dataRemaining := pdu.second.toNat }) := by
  rw [nvmeTcpHandleC2hData, hr]
  dsimp only
  rw [if_neg hpayload, if_neg (fun h => hlast h.2)]

end Header

section Null

variable {c : Config} {q q' : RecvQueue}

/-- Every request that has data to transfer has a bio. -/
def HasBios (rqs : UInt16 → Option NvmeTcpRequest) : Prop :=
  ∀ t r, rqs t = some r → r.rq.blkRqPayloadBytes ≠ 0 → r.currBio ≠ []

def RecvQueue.tag (q : RecvQueue) : UInt16 := (NvmeTcpXferPdu.decode q.pdu).commandId

/-- Requests have their bios, the one whose data is coming in too, and the request of a digest is
there. -/
structure CanStore (q : RecvQueue) : Prop where
  bios : HasBios q.rqs
  data : q.nvmeTcpRecvState = .data → ∀ r, q.rqs q.tag = some r → r.currBio ≠ []
  ddgst : q.nvmeTcpRecvState = .ddgst → q.rqs q.tag ≠ none

theorem CanStore.of_header (hrem : q.pduRemaining ≠ 0) (hbios : HasBios q.rqs) : CanStore q := by
  have hstate : q.nvmeTcpRecvState = .pdu := if_pos hrem
  refine ⟨hbios, fun h => ?_, fun h => ?_⟩
  · rw [hstate] at h
    cases h
  · rw [hstate] at h
    cases h

theorem initRecvCtx_remaining (c : Config) (q : RecvQueue) :
    (q.nvmeTcpInitRecvCtx c).pduRemaining ≠ 0 :=
  (Nat.add_pos_left (by decide) _).ne'

theorem endIfSuccess_rqs (pdu : NvmeTcpDataPdu) (q : RecvQueue) :
    (endIfSuccess pdu q).rqs = q.rqs := by
  unfold endIfSuccess
  split_ifs <;> rfl

theorem canStore_handleC2hData (h : HasBios q.rqs)
    (hok : (nvmeTcpHandleC2hData (NvmeTcpXferPdu.decode q.pdu) q).1 = 0) :
    CanStore (nvmeTcpHandleC2hData (NvmeTcpXferPdu.decode q.pdu) q).2 := by
  unfold nvmeTcpHandleC2hData at hok ⊢
  cases hr : q.rqs (NvmeTcpXferPdu.decode q.pdu).commandId with
  | none =>
    rw [hr] at hok
    cases hok
  | some r =>
    rw [hr] at hok
    dsimp only at hok ⊢
    split_ifs at hok ⊢ with hpayload hflags
    · cases hok
    · cases hok
    · refine ⟨h, fun _ r' hr' => h _ r' hr' ?_, fun _ hnone => ?_⟩
      · obtain rfl : r = r' := Option.some.inj (hr.symm.trans hr')
        exact hpayload
      · rw [show q.rqs (NvmeTcpXferPdu.decode q.pdu).commandId = none from hnone] at hr
        cases hr

theorem handleComp_rqs (c : Config) (cqe : NvmeCompletion) (q : RecvQueue) :
    (nvmeTcpHandleComp c cqe q).2.rqs = q.rqs := by
  unfold nvmeTcpHandleComp nvmeTcpProcessNvmeCqe
  split_ifs
  · rfl
  · split <;> rfl

theorem HasBios.update {rqs : UInt16 → Option NvmeTcpRequest} (h : HasBios rqs) {t : UInt16}
    {r : NvmeTcpRequest} (hr : r.rq.blkRqPayloadBytes ≠ 0 → r.currBio ≠ []) :
    HasBios (Function.update rqs t (some r)) := by
  intro t' r' hr'
  rw [Function.update_apply] at hr'
  split_ifs at hr'
  · cases hr'
    exact hr
  · exact h t' r' hr'

theorem setupH2cDataPdu_bios (c : Config) (r : NvmeTcpRequest) (pdu : NvmeTcpR2tPdu) :
    (nvmeTcpSetupH2cDataPdu c r pdu).2.rq = r.rq ∧
      (nvmeTcpSetupH2cDataPdu c r pdu).2.currBio = r.currBio := by
  unfold nvmeTcpSetupH2cDataPdu
  dsimp only
  split_ifs <;> exact ⟨rfl, rfl⟩

theorem HasBios.handleR2t (h : HasBios q.rqs) (pdu : NvmeTcpR2tPdu) :
    HasBios (nvmeTcpHandleR2t c pdu q).2.rqs := by
  unfold nvmeTcpHandleR2t
  cases hr : q.rqs pdu.commandId with
  | none => exact h
  | some r =>
    have hsame := setupH2cDataPdu_bios c r pdu
    have hold := h _ r hr
    dsimp only
    cases hset : nvmeTcpSetupH2cDataPdu c r pdu with
    | mk ok r' =>
      rw [hset] at hsame
      have hnew : r'.rq.blkRqPayloadBytes ≠ 0 → r'.currBio ≠ [] := by
        rw [hsame.1, hsame.2]
        exact hold
      cases ok
      · exact h.update hnew
      · exact h.update hnew

theorem canStore_recvHeader (h : HasBios q.rqs) (hok : (recvHeader c q).1 = 0) :
    CanStore (recvHeader c q).2 := by
  rw [recvHeader_eq] at hok ⊢
  by_cases hcheck : headerCheck c q.pdu ≠ 0
  · rw [if_pos hcheck] at hok
    exact absurd hok hcheck
  rw [if_neg hcheck] at hok ⊢
  have hclear : HasBios (clearHash c q).rqs := by
    unfold clearHash
    split_ifs <;> exact h
  generalize clearHash c q = q₁ at hclear hok ⊢
  unfold handleHeader at hok ⊢
  split_ifs at hok ⊢
  · exact canStore_handleC2hData hclear hok
  · have hsame := (handleComp_kept c (NvmeCompletion.decodeAt q₁.pdu 8)
      (q₁.nvmeTcpInitRecvCtx c)).2.1.2.2
    refine .of_header (by rw [hsame]; exact initRecvCtx_remaining c q₁) ?_
    rw [handleComp_rqs]
    exact hclear
  · have hsame := (handleR2t_kept c (NvmeTcpXferPdu.decode q₁.pdu)
      (q₁.nvmeTcpInitRecvCtx c)).2.1.2.2
    exact .of_header (by rw [hsame]; exact initRecvCtx_remaining c q₁)
      (HasBios.handleR2t (q := q₁.nvmeTcpInitRecvCtx c) hclear _)
  · cases hok

theorem CanStore.recvPdu (h : CanStore q) (b : List Byte) :
    (nvmeTcpRecvPdu c b q).1 ≠ ⊥ ∧
      ((nvmeTcpRecvPdu c b q).1 = 0 → CanStore (nvmeTcpRecvPdu c b q).2.1) := by
  rcases Nat.lt_or_ge b.length q.pduRemaining with hlt | hge
  · rw [recvPdu_short c hlt]
    have hrem : (headerBytes b q).pduRemaining ≠ 0 := (Nat.sub_pos_of_lt hlt).ne'
    exact ⟨WithBot.zero_ne_bot, fun _ => .of_header hrem h.bios⟩
  · rw [recvPdu_whole c hge]
    exact ⟨WithBot.coe_ne_bot, fun hok => canStore_recvHeader h.bios (WithBot.coe_eq_zero.1 hok)⟩

theorem CanStore.recvDdgst (h : CanStore q) (hstate : q.nvmeTcpRecvState = .ddgst) (b : List Byte) :
    (nvmeTcpRecvDdgst c b q).1 ≠ ⊥ ∧
      ((nvmeTcpRecvDdgst c b q).1 = 0 → CanStore (nvmeTcpRecvDdgst c b q).2.1) := by
  have hpdu := pduRemaining_of_ddgst hstate
  rcases Nat.lt_or_ge b.length q.ddgstRemaining with hlt | hge
  · rw [recvDdgst_short c hlt]
    refine ⟨WithBot.zero_ne_bot, fun _ => ⟨h.bios, fun hdata => ?_, fun _ => h.ddgst hstate⟩⟩
    have hrem : (ddgstBytes b q).ddgstRemaining ≠ 0 := (Nat.sub_pos_of_lt hlt).ne'
    rw [nvmeTcpRecvState, if_neg (not_not.2 (show (ddgstBytes b q).pduRemaining = 0 from hpdu)),
      if_pos hrem] at hdata
    cases hdata
  · rw [recvDdgst_whole c hge, ddgstEnd]
    split_ifs with hdiffer hnull
    · exact ⟨WithBot.coe_ne_bot, nofun⟩
    · exact absurd hnull.2 (h.ddgst hstate)
    · refine ⟨WithBot.zero_ne_bot, fun _ => .of_header (initRecvCtx_remaining c _) ?_⟩
      exact (endIfSuccess_rqs _ _).symm ▸ h.bios

theorem dataEnd_state (hpdu : q.pduRemaining = 0) : (dataEnd c q).nvmeTcpRecvState ≠ .data := by
  unfold dataEnd nvmeTcpRecvState
  split_ifs <;> simp_all [nvmeTcpInitRecvCtx, NVME_TCP_DIGEST_LENGTH]

theorem canStore_dataEnd (hpdu : q.pduRemaining = 0) (hbios : HasBios q.rqs)
    (hrq : q.rqs q.tag ≠ none) :
    CanStore (dataEnd c q) := by
  have hrqs : (dataEnd c q).rqs = q.rqs := by
    unfold dataEnd
    split_ifs
    · rfl
    · exact endIfSuccess_rqs _ q
  refine ⟨hrqs ▸ hbios, fun hdata => absurd hdata (dataEnd_state hpdu), fun hddgst => ?_⟩
  unfold dataEnd at hddgst ⊢
  split_ifs at hddgst ⊢
  · exact hrq
  · rw [nvmeTcpRecvState, if_pos (initRecvCtx_remaining c _)] at hddgst
    cases hddgst

theorem CanStore.recvData (h : CanStore q) (hstate : q.nvmeTcpRecvState = .data) (b : List Byte) :
    (nvmeTcpRecvData c b q).1 ≠ ⊥ ∧
      ((nvmeTcpRecvData c b q).1 = 0 → CanStore (nvmeTcpRecvData c b q).2.1) := by
  cases hr : q.rqs q.tag with
  | none =>
    unfold nvmeTcpRecvData
    dsimp only
    rw [show q.rqs (NvmeTcpXferPdu.decode q.pdu).commandId = none from hr]
    exact ⟨WithBot.coe_ne_bot, nofun⟩
  | some r =>
    have hbios := h.data hstate r hr
    rw [recvData_eq c hr rfl]
    obtain ⟨hnull, hkept⟩ := copyOut_bios (min b.length q.dataRemaining) r hbios
    rw [if_neg hnull]
    by_cases hroom : (copyOut (min b.length q.dataRemaining) r).1 = 0
    swap
    · rw [if_pos hroom]
      exact ⟨hnull, fun hok => absurd hok hroom⟩
    obtain ⟨hbios', hrq⟩ := hkept hroom
    have hstored : HasBios
        (Function.update q.rqs q.tag (some (copyOut (min b.length q.dataRemaining) r).2.1)) :=
      h.bios.update fun _ => hbios'
    rw [if_neg (not_not.2 hroom)]
    split_ifs with hmore
    · refine ⟨WithBot.zero_ne_bot, fun _ => ⟨hstored, fun _ r' hr' => ?_, fun _ => ?_⟩⟩
      · rw [show (storeData c _ b _ q).rqs (storeData c _ b _ q).tag =
          some _ from Function.update_self _ _ _] at hr'
        cases hr'
        exact hbios'
      · exact ne_of_eq_of_ne (Function.update_self _ _ _) (Option.some_ne_none _)
    · refine ⟨WithBot.zero_ne_bot,
        fun _ => canStore_dataEnd (pduRemaining_of_data hstate) hstored ?_⟩
      exact ne_of_eq_of_ne (Function.update_self _ _ _) (Option.some_ne_none _)

/-- A turn of the receive loop meets no NULL pointer, and the next one will not. -/
theorem CanStore.piece (h : CanStore q) (b : List Byte) :
    (recvPiece c b q).1 ≠ ⊥ ∧ ((recvPiece c b q).1 = 0 → CanStore (recvPiece c b q).2.1) := by
  rw [recvPiece_eq]
  cases hstate : q.nvmeTcpRecvState with
  | pdu => exact h.recvPdu b
  | ddgst => exact h.recvDdgst hstate b
  | data => exact h.recvData hstate b

end Null

section Loop

variable {c : Config} {q q' : RecvQueue} {a b : List Byte} {res res' : Ret × RecvQueue}

def recvFailed (p : Ret × RecvQueue × List Byte) : Ret × RecvQueue :=
  (p.1, { p.2.1.tell (.receiveFailed p.1) with rdEnabled := false })

/-- The `while` loop of `nvme_tcp_recv_skb` ends, with this result and this queue. -/
inductive RecvSkbEnds (c : Config) : List Byte → RecvQueue → Ret × RecvQueue → Prop
  | done (q : RecvQueue) : RecvSkbEnds c [] q (0, q)
  | fail {b : List Byte} {q : RecvQueue} : b ≠ [] → (recvPiece c b q).1 ≠ ⊥ →
    (recvPiece c b q).1 ≠ 0 →
      RecvSkbEnds c b q (recvFailed (recvPiece c b q))
  | turn {b : List Byte} {q : RecvQueue} {res : Ret × RecvQueue} : b ≠ [] →
    (recvPiece c b q).1 = 0 →
      RecvSkbEnds c (recvPiece c b q).2.2 (recvPiece c b q).2.1 res → RecvSkbEnds c b q res

/-- The turns that may be left: two for each byte, and one for data that has none. -/
def turnsLeft (b : List Byte) (q : RecvQueue) : ℕ :=
  2 * b.length + if q.nvmeTcpRecvState = .data then 1 else 0

theorem turnsLeft_of_consumed {n : ℕ} (hn : 0 < n) (hle : n ≤ b.length) (q q' : RecvQueue) :
    turnsLeft (b.drop n) q' < turnsLeft b q := by
  unfold turnsLeft
  rw [List.length_drop]
  split_ifs <;> omega

/-- A turn takes a byte, or ends a data PDU that has none left. -/
theorem recvPiece_turnsLeft (hb : b ≠ []) (hok : (recvPiece c b q).1 = 0) :
    turnsLeft (recvPiece c b q).2.2 (recvPiece c b q).2.1 < turnsLeft b q := by
  have hpos : 0 < b.length := List.length_pos_iff.2 hb
  rw [recvPiece_eq] at hok ⊢
  cases hs : q.nvmeTcpRecvState with
  | pdu =>
    have hrem : 0 < q.pduRemaining := by
      unfold nvmeTcpRecvState at hs
      split_ifs at hs with h1
      omega
    rw [hs, pieceOf] at hok
    rw [pieceOf]
    rcases Nat.lt_or_ge b.length q.pduRemaining with hlt | hge
    · rw [recvPdu_short c hlt, ← List.drop_length (l := b)]
      exact turnsLeft_of_consumed hpos le_rfl q _
    · rw [recvPdu_whole c hge]
      exact turnsLeft_of_consumed hrem hge q _
  | ddgst =>
    have hrem : 0 < q.ddgstRemaining := by
      unfold nvmeTcpRecvState at hs
      split_ifs at hs with h1 h2
      omega
    rw [pieceOf]
    rcases Nat.lt_or_ge b.length q.ddgstRemaining with hlt | hge
    · rw [recvDdgst_short c hlt, ← List.drop_length (l := b)]
      exact turnsLeft_of_consumed hpos le_rfl q _
    · rw [recvDdgst_whole c hge]
      exact turnsLeft_of_consumed hrem hge q _
  | data =>
    rw [hs, pieceOf] at hok
    rw [pieceOf]
    rcases hr : q.rqs (NvmeTcpXferPdu.decode q.pdu).commandId with _ | r
    · unfold nvmeTcpRecvData at hok
      dsimp only at hok
      rw [hr] at hok
      cases hok
    · have hpdu : q.pduRemaining = 0 := pduRemaining_of_data hs
      obtain ⟨r', hr', hroom⟩ := recvData_room hok
      obtain rfl : r = r' := Option.some.inj (hr.symm.trans hr')
      · rw [recvData_eq c hr rfl, if_neg (by simp [hroom]), if_neg (not_not.2 hroom),
          (copyOut_copied _ r).2 hroom]
        by_cases hrem : q.dataRemaining = 0
        · -- nothing is read, but the PDU is over
          have hzero : min b.length q.dataRemaining = 0 := by omega
          rw [hzero, if_neg (by omega), List.drop_zero]
          dsimp only
          unfold turnsLeft
          rw [if_neg (dataEnd_state (q := storeData c 0 b (copyOut 0 r).2.1 q) hpdu), if_pos hs]
          omega
        · split_ifs
          · exact turnsLeft_of_consumed (by omega) (Nat.min_le_left _ _) q _
          · exact turnsLeft_of_consumed (by omega) (Nat.min_le_left _ _) q _

theorem CanStore.ends (h : CanStore q) (b : List Byte) : ∃ res, RecvSkbEnds c b q res := by
  induction hk : turnsLeft b q using Nat.strong_induction_on generalizing b q with
  | _ k ih =>
    by_cases hb : b = []
    · subst hb
      exact ⟨_, .done q⟩
    · obtain ⟨hnull, hnext⟩ := h.piece b (c := c)
      by_cases hok : (recvPiece c b q).1 = 0
      · obtain ⟨res, hres⟩ := ih _ (hk ▸ recvPiece_turnsLeft hb hok) (hnext hok) _ rfl
        exact ⟨res, .turn hb hok hres⟩
      · exact ⟨_, .fail hb hnull hok⟩

theorem CanStore.kept (h : CanStore q) (hends : RecvSkbEnds c b q res) (hok : res.1 = 0) :
    CanStore res.2 := by
  induction hends with
  | done q => exact h
  | fail _ _ hret => exact absurd hok hret
  | turn hb hpiece _ ih => exact ih ((h.piece _).2 hpiece) hok

/-- The model's loop is the loop: its fuel is not used up before the end. -/
theorem RecvSkbEnds.loop (h : RecvSkbEnds c b q res) {fuel : ℕ} (hfuel : turnsLeft b q ≤ fuel) :
    recvSkbLoop c fuel b q = res := by
  induction h generalizing fuel with
  | done q =>
    cases fuel with
    | zero => rfl
    | succ fuel => rw [recvSkbLoop, if_pos rfl]
  | @fail b q hb hnull hret =>
    have hpos : 0 < b.length := List.length_pos_iff.2 hb
    obtain ⟨fuel, rfl⟩ : ∃ k, fuel = k + 1 := ⟨fuel - 1, by unfold turnsLeft at hfuel; omega⟩
    rw [recvSkbLoop, if_neg hb]
    dsimp only
    rw [if_neg hnull, if_pos hret]
    rfl
  | @turn b q res hb hok _ ih =>
    have hlt := recvPiece_turnsLeft hb hok
    obtain ⟨fuel, rfl⟩ : ∃ k, fuel = k + 1 := ⟨fuel - 1, by omega⟩
    rw [recvSkbLoop, if_neg hb]
    dsimp only
    rw [if_neg (by rw [hok]; exact WithBot.zero_ne_bot), if_neg (not_not.2 hok)]
    exact ih (by omega)

theorem turnsLeft_le (b : List Byte) (q : RecvQueue) : turnsLeft b q ≤ 2 * b.length + 1 := by
  unfold turnsLeft
  split_ifs <;> omega

theorem RecvSkbEnds.recvSkb (h : RecvSkbEnds c b q res) :
    nvmeTcpRecvSkb c b q = (if res.1 ≠ 0 then res.1 else ((b.length : ℤ) : Ret), res.2) := by
  unfold nvmeTcpRecvSkb
  rw [h.loop (turnsLeft_le b q)]

theorem RecvSkbEnds.ne_bot (h : RecvSkbEnds c b q res) : res.1 ≠ ⊥ := by
  induction h with
  | done q => exact WithBot.zero_ne_bot
  | fail _ hnull _ => exact hnull
  | turn _ _ _ ih => exact ih

theorem RecvSkbEnds.kept (h : RecvSkbEnds c b q res) (hq : RecvOk c q) : res.1 ≤ 0 ∧
    RecvOk c res.2 := by
  induction h with
  | done q => exact ⟨le_rfl, hq⟩
  | @fail b q _ _ _ =>
    have hkept := recvPiece_kept hq b
    exact ⟨hkept.1, hkept.2.same ⟨⟨rfl, rfl, rfl⟩, rfl, rfl⟩⟩
  | turn _ _ _ ih => exact ih (recvPiece_kept hq _).2

/-- A loop that has ended without an error, and one on the bytes that come next. -/
theorem RecvSkbEnds.append (h : RecvSkbEnds c a q res) (hq : RecvOk c q) (hok : res.1 = 0)
    (h' : RecvSkbEnds c b res.2 res') : RecvSkbEnds c (a ++ b) q res' := by
  induction h with
  | done q => exact h'
  | fail _ _ hret => exact absurd hok hret
  | @turn a q res ha hpiece hrest ih =>
    have hne : a ++ b ≠ [] := fun hnil => ha (List.append_eq_nil_iff.1 hnil).1
    rcases recvPiece_append hq a b hpiece with hwhole | ⟨hnil, hmore⟩
    · refine .turn hne (by rw [hwhole]) ?_
      rw [hwhole]
      exact ih (recvPiece_kept hq a).2 hok h'
    · -- the bytes end inside a part, and the next ones go on with it
      rw [hnil] at hrest
      cases hrest with
      | done =>
        cases h' with
        | done =>
          rw [List.append_nil]
          exact .turn ha hpiece (hnil ▸ .done _)
        | fail hb hnull hret =>
          rw [← hmore] at hnull hret ⊢
          exact .fail hne hnull hret
        | turn hb hok' hrest' =>
          rw [← hmore] at hok' hrest'
          exact .turn hne hok' hrest'
      | fail hb _ _ => exact absurd rfl hb
      | turn hb _ _ => exact absurd rfl hb

theorem recvOk_blank (c : Config) : RecvOk c (blankRecvQueue c) :=
  ⟨List.length_replicate, Nat.zero_add _, rfl, Nat.zero_le _⟩

end Loop

/-! At a header the bios are all that counts: for a request without one there are data PDUs that
have the host follow a NULL pointer. -/

section Faults

variable {c : Config} {q : RecvQueue}

structure AtHeader (c : Config) (q : RecvQueue) : Prop where
  remaining : q.pduRemaining = 24 + nvmeTcpHdgstLen c
  offset : q.pduOffset = 0
  ddgst : q.ddgstRemaining = 0

def gotHeader (w : List Byte) (q : RecvQueue) : RecvQueue :=
  { q with pdu := w, pduRemaining := 0, pduOffset := w.length }

theorem gotHeader_pdu (w : List Byte) (q : RecvQueue) : (gotHeader w q).pdu = w := rfl

theorem writeAt_atHeader (hq : RecvOk c q) (ha : AtHeader c q) {w : List Byte}
    (hw : w.length = 24 + nvmeTcpHdgstLen c) : writeAt q.pdu q.pduOffset w = w := by
  have hdrop : q.pdu.drop w.length = [] := List.drop_eq_nil_of_le (by rw [hq.pdu, hw])
  simp [writeAt, ha.offset, hdrop]

theorem headerBytes_atHeader (hq : RecvOk c q) (ha : AtHeader c q) {w : List Byte}
    (hw : w.length = 24 + nvmeTcpHdgstLen c) : headerBytes w q = gotHeader w q := by
  have hrem : q.pduRemaining - w.length = 0 := by
    rw [ha.remaining, hw]
    exact Nat.sub_self _
  unfold headerBytes gotHeader
  rw [writeAt_atHeader hq ha hw, hrem, ha.offset, Nat.zero_add]

def withHdgst (c : Config) (e : List Byte) : List Byte := e ++ if c.hdrDigest then c.crc e else []

theorem withHdgst_length {e : List Byte} (he : e.length = 24) :
    (withHdgst c e).length = 24 + nvmeTcpHdgstLen c := by
  unfold withHdgst nvmeTcpHdgstLen
  split_ifs <;> simp [he, c.crc_length]

theorem headerCheck_withHdgst {e : List Byte} (he : e.length = 24)
    (hlen : (NvmeTcpHdr.decode e).hlen = 24)
    (hhdgst : c.hdrDigest = true → (NvmeTcpHdr.decode e).flags &&& NVME_TCP_F_HDGST ≠ 0)
    (hddgst : c.dataDigest = true → (NvmeTcpHdr.decode e).flags &&& NVME_TCP_F_DDGST ≠ 0) :
    headerCheck c (withHdgst c e) = 0 := by
  have hdec : NvmeTcpHdr.decode (withHdgst c e) = NvmeTcpHdr.decode e :=
    NvmeTcpHdr.decode_append (by omega)
  have hverify : c.hdrDigest = true → nvmeTcpVerifyHdgst c (withHdgst c e) = 0 := by
    intro hd
    have hwith : withHdgst c e = e ++ c.crc e := by rw [withHdgst, if_pos hd]
    have htake : (e ++ c.crc e).take 24 = e := List.take_left' he
    have hdrop : (e ++ c.crc e).drop 24 = c.crc e := List.drop_left' he
    have hall : (c.crc e).take NVME_TCP_DIGEST_LENGTH = c.crc e :=
      List.take_of_length_le (c.crc_length e).le
    unfold nvmeTcpVerifyHdgst
    dsimp only
    rw [hdec, hlen, if_neg (hhdgst hd), hwith]
    change (if ((e ++ c.crc e).drop 24).take NVME_TCP_DIGEST_LENGTH ≠
      c.crc ((e ++ c.crc e).take 24) then _ else _) = _
    rw [htake, hdrop, hall, if_neg (not_not.2 rfl)]
  unfold headerCheck
  rw [if_neg (fun hd => hd.2 (hverify hd.1))]
  split_ifs with hd
  · unfold nvmeTcpCheckDdgst
    dsimp only
    rw [hdec, if_neg (fun h => hddgst hd h.2)]
  · rfl

def dataFor (t : UInt16) (n : ℕ) : NvmeTcpDataPdu :=
  ⟨⟨nvmeTcpC2hData, NVME_TCP_F_HDGST ||| NVME_TCP_F_DDGST, 24, 24, 0⟩, t, 0, 0, UInt32.ofNat n⟩

theorem flags_dataFor (t : UInt16) (n : ℕ) :
    (dataFor t n).hdr.flags = NVME_TCP_F_HDGST ||| NVME_TCP_F_DDGST := rfl

theorem headerCheck_dataFor (c : Config) (t : UInt16) (n : ℕ) :
    headerCheck c (withHdgst c (dataFor t n).encode) = 0 := by
  have hhdr : NvmeTcpHdr.decode (dataFor t n).encode = (dataFor t n).hdr := by
    simpa using (dataFor t n).hdr_encode_append []
  refine headerCheck_withHdgst (dataFor t n).encode_length (by rw [hhdr]; rfl)
    (fun _ => ?_) fun _ => ?_
  · rw [hhdr, flags_dataFor]
    decide
  · rw [hhdr, flags_dataFor]
    decide

/-- Its header has the host wait for the data. -/
theorem handleHeader_dataFor {t : UInt16} {n : ℕ} {r : NvmeTcpRequest} (hr : q.rqs t = some r)
    (hpdu : q.pdu = withHdgst c (dataFor t n).encode) (hpayload : r.rq.blkRqPayloadBytes ≠ 0)
    (hn : n < 2 ^ 32) :
    handleHeader c q = (0, { q with dataRemaining := n }) := by
  have hdec : NvmeTcpXferPdu.decode q.pdu = dataFor t n := by
    rw [hpdu]
    exact (dataFor t n).decode_encode_append _
  have htype : (NvmeTcpHdr.decode q.pdu).type = nvmeTcpC2hData := by
    rw [hpdu]
    exact congrArg NvmeTcpHdr.type ((dataFor t n).hdr_encode_append _)
  rw [handleHeader_c2h htype, hdec, nvmeTcpHandleC2hData, show (dataFor t n).commandId = t from rfl,
    hr]
  dsimp only
  rw [if_neg hpayload, if_neg (fun h => absurd h.1 (by rw [flags_dataFor]; decide)),
    show (dataFor t n).second.toNat = n from UInt32.toNat_ofNat_of_lt' hn]

theorem recvPiece_dataFor (hq : RecvOk c q) (ha : AtHeader c q) {t : UInt16} {r : NvmeTcpRequest}
    (hr : q.rqs t = some r) (hpayload : r.rq.blkRqPayloadBytes ≠ 0) {n : ℕ} (hn : n < 2 ^ 32)
    (b : List Byte) :
    recvPiece c (withHdgst c (dataFor t n).encode ++ b) q =
      (0, { clearHash c (gotHeader (withHdgst c (dataFor t n).encode) q) with dataRemaining := n },
        b) := by
  have hlen := @withHdgst_length c _ (dataFor t n).encode_length
  have hrqs : (clearHash c (gotHeader (withHdgst c (dataFor t n).encode) q)).rqs t = some r := by
    unfold clearHash
    split_ifs <;> exact hr
  have hhandle := handleHeader_dataFor hrqs (clearHash_pdu c _) hpayload hn
  have hge : q.pduRemaining ≤ (withHdgst c (dataFor t n).encode ++ b).length := by
    rw [ha.remaining, List.length_append, hlen]
    exact Nat.le_add_right _ _
  rw [recvPiece_eq, show q.nvmeTcpRecvState = .pdu from if_pos (by rw [ha.remaining]; omega),
    pieceOf, recvPdu_whole c hge, List.take_left' (by rw [ha.remaining, hlen]),
    List.drop_left' (by rw [ha.remaining, hlen]), headerBytes_atHeader hq ha hlen, recvHeader_eq,
    gotHeader_pdu, if_neg (not_not.2 (headerCheck_dataFor c t n)), hhandle]
  rfl

/-- More data than there is room for, for a request that has no bio left. -/
theorem recvSkb_null (hq : RecvOk c q) (ha : AtHeader c q) {t : UInt16} {r : NvmeTcpRequest}
    (hr : q.rqs t = some r) (hpayload : r.rq.blkRqPayloadBytes ≠ 0) (hnil : r.currBio = []) {n : ℕ}
    (hcount : r.iter.count < n) (hn : n < 2 ^ 32) :
    (recvSkbLoop c (2 * (withHdgst c (dataFor t n).encode ++ List.replicate n 0).length + 1)
      (withHdgst c (dataFor t n).encode ++ List.replicate n 0) q).1 = ⊥ := by
  generalize hb : withHdgst c (dataFor t n).encode ++ List.replicate n 0 = b
  have hlen := @withHdgst_length c _ (dataFor t n).encode_length
  have hpos : 2 ≤ 2 * b.length := by
    rw [← hb, List.length_append, hlen]
    omega
  have hne : b ≠ [] := by
    rintro rfl
    simp at hpos
  have hrest : List.replicate n (0 : Byte) ≠ [] := by
    simp only [ne_eq, List.replicate_eq_nil_iff]
    omega
  obtain ⟨fuel, hfuel⟩ : ∃ k, 2 * b.length + 1 = k + 1 + 1 := ⟨2 * b.length - 1, by omega⟩
  have hpiece := recvPiece_dataFor hq ha hr hpayload hn (List.replicate n 0)
  rw [hb] at hpiece
  generalize hq₁ : ({ clearHash c (gotHeader (withHdgst c (dataFor t n).encode) q) with
    dataRemaining := n } : RecvQueue) = q₁ at hpiece
  have hstate : q₁.nvmeTcpRecvState = .data := by
    have h0 : q₁.pduRemaining = 0 ∧ q₁.ddgstRemaining = 0 := by
      rw [← hq₁]
      unfold clearHash
      split_ifs <;> exact ⟨rfl, ha.ddgst⟩
    rw [nvmeTcpRecvState, if_neg (not_not.2 h0.1), if_neg (not_not.2 h0.2)]
  have hrq : q₁.rqs (NvmeTcpXferPdu.decode q₁.pdu).commandId = some r := by
    have hpdu : q₁.pdu = withHdgst c (dataFor t n).encode := by
      rw [← hq₁]
      exact clearHash_pdu _ _
    rw [hpdu, show NvmeTcpXferPdu.decode (withHdgst c (dataFor t n).encode) =
      dataFor t n from (dataFor t n).decode_encode_append _, ← hq₁]
    unfold clearHash
    split_ifs <;> exact hr
  have hnull : (recvPiece c (List.replicate n 0) q₁).1 = ⊥ := by
    have hdata : q₁.dataRemaining = n := by rw [← hq₁]
    rw [recvPiece_eq, hstate, pieceOf, recvData_eq c hrq rfl, hdata, List.length_replicate,
      Nat.min_self, if_pos (copyOut_null hnil hcount)]
  rw [hfuel, recvSkbLoop, if_neg hne, hpiece]
  dsimp only
  rw [if_neg WithBot.zero_ne_bot, if_neg (not_not.2 rfl), recvSkbLoop, if_neg hrest]
  dsimp only
  rw [if_pos hnull]

end Faults

/-- The loop of `nvme_tcp_recv_skb` ends on `a`; and what is received in two pieces, the first one
without an error, is received as in one. -/
structure Segments (c : Config) (q : RecvQueue) (a b : List Byte) : Prop where
  ends : RecvSkbEnds c a q (recvSkbLoop c (2 * a.length + 1) a q)
  state : 0 ≤ (nvmeTcpRecvSkb c a q).1 →
    (nvmeTcpRecvSkb c (a ++ b) q).2 = (nvmeTcpRecvSkb c b (nvmeTcpRecvSkb c a q).2).2
  consumed : 0 ≤ (nvmeTcpRecvSkb c a q).1 → 0 ≤ (nvmeTcpRecvSkb c b (nvmeTcpRecvSkb c a q).2).1 →
    (nvmeTcpRecvSkb c (a ++ b) q).1 = ((a.length : ℤ) : Ret) +
      (nvmeTcpRecvSkb c b (nvmeTcpRecvSkb c a q).2).1
  failed : 0 ≤ (nvmeTcpRecvSkb c a q).1 → ¬ 0 ≤ (nvmeTcpRecvSkb c b (nvmeTcpRecvSkb c a q).2).1 →
    (nvmeTcpRecvSkb c (a ++ b) q).1 = (nvmeTcpRecvSkb c b (nvmeTcpRecvSkb c a q).2).1

theorem Segments.ne_bot {c : Config} {q : RecvQueue} {a b : List Byte} (h : Segments c q a b) :
    (nvmeTcpRecvSkb c a q).1 ≠ ⊥ := by
  have hne := h.ends.ne_bot
  rw [h.ends.recvSkb]
  split_ifs
  · exact hne
  · exact WithBot.coe_ne_bot

theorem CanStore.segments {c : Config} {q : RecvQueue} (h : CanStore q) (hq : RecvOk c q)
    (a b : List Byte) :
    Segments c q a b := by
  obtain ⟨res, hends⟩ := h.ends (c := c) a
  have hrecv := hends.recvSkb
  have hkept := hends.kept hq
  -- without an error the second piece can be stored too
  have hzero : 0 ≤ (nvmeTcpRecvSkb c a q).1 → res.1 = 0 := by
    intro hok
    by_contra hne
    rw [hrecv, if_pos hne] at hok
    exact hne (le_antisymm hkept.1 hok)
  have hboth : res.1 = 0 → ∃ res', RecvSkbEnds c b res.2 res' ∧ RecvSkbEnds c (a ++ b) q res' := by
    intro hok
    obtain ⟨res', hends'⟩ := (h.kept hends hok).ends (c := c) b
    exact ⟨res', hends', hends.append hq hok hends'⟩
  have hsnd : (nvmeTcpRecvSkb c a q).2 = res.2 := by rw [hrecv]
  refine ⟨(hends.loop (turnsLeft_le a q)).symm ▸ hends, fun hok => ?_, fun hok hmore => ?_,
    fun hok hmore => ?_⟩
  · obtain ⟨res', hb, hab⟩ := hboth (hzero hok)
    rw [hsnd, hb.recvSkb, hab.recvSkb]
  · obtain ⟨res', hb, hab⟩ := hboth (hzero hok)
    have hle := (hb.kept hkept.2).1
    have hall : ¬ res'.1 ≠ 0 := by
      intro hne
      rw [hsnd, hb.recvSkb, if_pos hne] at hmore
      exact hne (le_antisymm hle hmore)
    rw [hsnd, hb.recvSkb, hab.recvSkb, if_neg hall, if_neg hall, List.length_append, Nat.cast_add,
      WithBot.coe_add]
  · obtain ⟨res', hb, hab⟩ := hboth (hzero hok)
    have hne : res'.1 ≠ 0 := by
      intro hall
      rw [hsnd, hb.recvSkb, if_neg (not_not.2 hall)] at hmore
      exact hmore (WithBot.coe_le_coe.2 (Int.natCast_nonneg _))
    rw [hsnd, hb.recvSkb, hab.recvSkb, if_pos hne, if_pos hne]

/-- In every receive state in which the requests have their bios, the loops of `nvme_tcp_recv_skb`
end on every input, the one inside a turn because all is copied or there is no room, and the stream
may be cut anywhere. At a header that is needed as well. -/
theorem recv_skb_segmentation (c : Config) (q : RecvQueue) (hq : RecvOk c q) :
    (CanStore q → ∀ a b, Segments c q a b) ∧
    (∀ (len : ℕ) (r : NvmeTcpRequest), (recvDataLoop (len + r.currBio.length + 1) len r).1 = 0 →
      (recvDataLoop (len + r.currBio.length + 1) len r).2.2 = len) ∧
    (AtHeader c q → (∀ t r, q.rqs t = some r → r.iter.count + 1 < 2 ^ 32) →
      ((∀ a b, Segments c q a b) ↔ CanStore q)) := by
  refine ⟨fun h a b => h.segments hq a b, fun len r => (copyOut_copied len r).2,
    fun ha hcount => ?_⟩
  refine ⟨fun hall => ?_, fun h a b => h.segments hq a b⟩
  refine .of_header (by rw [ha.remaining]; omega) fun t r hr hpayload hnil => ?_
  have hnull := recvSkb_null hq ha hr hpayload hnil (Nat.lt_succ_self _) (hcount t r hr)
  exact (hall _ []).ends.ne_bot hnull

def readQueue : RecvQueue :=
  (blankRecvQueue sampleConfig).setRq 0
    (nvmeTcpSetupCmdPdu sampleConfig sampleRead (blankRequest sampleConfig))

def sampleC2h : List Byte :=
  let pdu : NvmeTcpDataPdu :=
    ⟨⟨nvmeTcpC2hData, NVME_TCP_F_DATA_LAST ||| NVME_TCP_F_DATA_SUCCESS, 24, 24, 28⟩, 0, 0, 0, 4⟩
  pdu.encode ++ [1, 2, 3, 4]

theorem canStore_readQueue : CanStore readQueue := by
  refine .of_header (by decide) fun t r hr _ => ?_
  simp only [readQueue, RecvQueue.setRq, Function.update_apply] at hr
  split_ifs at hr
  · cases hr
    decide
  · cases hr

theorem recv_skb_segmentation_sample :
    0 ≤ (nvmeTcpRecvSkb sampleConfig (sampleC2h.take 26) readQueue).1 ∧
      (nvmeTcpRecvSkb sampleConfig (sampleC2h.take 26 ++ sampleC2h.drop 26) readQueue).2 =
        (nvmeTcpRecvSkb sampleConfig (sampleC2h.drop 26)
          (nvmeTcpRecvSkb sampleConfig (sampleC2h.take 26) readQueue).2).2 ∧
      (nvmeTcpRecvSkb sampleConfig (sampleC2h.take 26 ++ sampleC2h.drop 26) readQueue).2.log =
        [.endRequest 0 0 0 [1, 2, 3, 4]] := by
  have hok : 0 ≤ (nvmeTcpRecvSkb sampleConfig (sampleC2h.take 26) readQueue).1 := by decide +kernel
  have hq : RecvOk sampleConfig readQueue :=
    (recvOk_blank sampleConfig).same ⟨⟨rfl, rfl, rfl⟩, rfl, rfl⟩
  exact ⟨hok, ((recv_skb_segmentation sampleConfig readQueue hq).1 canStore_readQueue _ _).state
    hok, by decide +kernel⟩

/-- Twice as much data as the read has asked for. -/
def sampleLongC2h : List Byte :=
  let pdu : NvmeTcpDataPdu := ⟨⟨nvmeTcpC2hData, NVME_TCP_F_DATA_LAST, 24, 24, 1048⟩, 0, 0, 0, 1024⟩
  pdu.encode ++ List.replicate 1024 0

/-- The first time the host finds that there is no room and reports it. The socket still has the
bytes, and the second time `curr_bio` is NULL when its `bi_next` is read. -/
theorem presented_again_is_null :
    (nvmeTcpRecvSkb sampleConfig sampleLongC2h readQueue).1 = ↑(- EIO) ∧
      (nvmeTcpRecvSkb sampleConfig sampleLongC2h
      (nvmeTcpRecvSkb sampleConfig sampleLongC2h readQueue).2).1 = ⊥ ∧
      ¬ Segments sampleConfig (nvmeTcpRecvSkb sampleConfig sampleLongC2h readQueue).2 sampleLongC2h
      [] := by
  have hfail : (nvmeTcpRecvSkb sampleConfig sampleLongC2h readQueue).1 =
    ↑(- EIO) := by decide +kernel
  have hnull : (nvmeTcpRecvSkb sampleConfig sampleLongC2h
      (nvmeTcpRecvSkb sampleConfig sampleLongC2h readQueue).2).1 = ⊥ := by decide +kernel
  exact ⟨hfail, hnull, fun h => h.ne_bot hnull⟩

end BlkSwitch.Host
