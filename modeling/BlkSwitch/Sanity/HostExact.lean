import BlkSwitch.Sanity.HostSend

/-! When the bytes a request sends are its payload. `nvme_tcp_req_cur_length` looks at the
`bio_vec` and at the PDU but not at what the bio has left, so a bio that ends inside a
`bio_vec` makes the driver send what lies behind it; only at the end of the last bio does
the PDU length stop it. -/

namespace BlkSwitch.Host

/-- The bio ends where its last `bio_vec` ends. -/
def Bio.Whole (b : Bio) : Prop := b.bvecDone + b.size = (b.ioVec.flatMap BioVec.data).length

def Rq.Whole (rq : Rq) : Prop := rq.specialVec = none → ∀ b ∈ rq.bio.dropLast, b.Whole

/-- The iterator stands at `data_sent`, and no bio but the last one ends inside a `bio_vec`. -/
structure Exact (r : NvmeTcpRequest) : Prop where
  ahead : r.ahead = r.rq.data.drop r.dataSent
  cur : r.later ≠ [] → r.iter.iovOffset + r.iter.count = (r.iter.bvec.flatMap BioVec.data).length
  rest : ∀ b ∈ r.later.dropLast, b.Whole

variable {c : Config} {r : NvmeTcpRequest}

theorem initIter_exact (hgood : ReqGood c r) (hne : r.dataLen ≠ 0) (hsent : r.dataSent = 0)
    (hw : r.rq.Whole) : Exact { r with iter := r.initIter } := by
  have hbio := hgood.first hsent
  have hahead := (initIter_good hgood.len hne hbio hsent).2
  refine ⟨?_, ?_, ?_⟩
  · rw [hahead]
    change _ = r.rq.data.drop r.dataSent
    rw [hsent, List.drop_zero]
  · intro hl
    cases hs : r.rq.specialVec with
    | some v => simp [NvmeTcpRequest.later, hs] at hl
    | none =>
      cases hb : r.currBio with
      | nil => simp [NvmeTcpRequest.later, hs, hb] at hl
      | cons b bs =>
        have hbs : bs ≠ [] := by simpa [NvmeTcpRequest.later, hs, hb] using hl
        have hwb : b.Whole := hw hs b (by
          rw [← hbio, hb, List.dropLast_cons_of_ne_nil hbs]
          exact List.mem_cons_self)
        simp only [NvmeTcpRequest.initIter, hs, hb]
        exact hwb
  · intro b hb
    cases hs : r.rq.specialVec with
    | some v => simp [NvmeTcpRequest.later, hs] at hb
    | none =>
      refine hw hs b ?_
      simp only [NvmeTcpRequest.later, hs] at hb
      rw [← hbio]
      cases hc : r.currBio with
      | nil => simp [hc] at hb
      | cons b' bs =>
        rw [hc, List.tail_cons] at hb
        have hbs : bs ≠ [] := by rintro rfl; simp at hb
        rw [List.dropLast_cons_of_ne_nil hbs]
        exact List.mem_cons_of_mem _ hb

theorem advance_whole {it : IovIter} (h : IterOk it) {n : ℕ} (hn : n < it.count)
    (hw : it.iovOffset + it.count = (it.bvec.flatMap BioVec.data).length) :
    (it.advance n).iovOffset + (it.advance n).count =
      ((it.advance n).bvec.flatMap BioVec.data).length := by
  have hmin : min n it.count = n := by omega
  have hfits := h.fits (by omega)
  have hlen := congrArg List.length
    (bvecAdvance_bytes it.bvec it.iovOffset n (by omega) (h.head (by omega)).le)
  have hok := (h.advance n).fits (by rw [IovIter.advance_count]; omega)
  simp only [IovIter.advance, hmin, List.length_drop] at hlen hok ⊢
  omega

theorem Exact.reqCurLength_le (h : Exact r) (hin : InData r) (hlen : r.rq.data.length = r.dataLen) :
    r.reqCurLength ≤ r.iter.count := by
  have hfits := hin.iter.ok.fits hin.iter.pos
  have hroom := hin.room
  have hcur : r.reqCurLength ≤ r.reqCurBvec.len - r.iter.iovOffset := Nat.min_le_left _ _
  have hleft : r.reqCurLength ≤ r.pduLen - r.pduSent := Nat.min_le_right _ _
  by_cases hl : r.later = []
  · -- the last bio: its end is the end of the payload
    have hahead := congrArg List.length h.ahead
    simp only [NvmeTcpRequest.ahead, hl, List.flatMap_nil, List.append_nil, hin.iter.ok.length,
      List.length_drop, hlen] at hahead
    omega
  · have hw := h.cur hl
    have hhead : r.reqCurBvec.len ≤ (r.iter.bvec.flatMap BioVec.data).length := by
      unfold NvmeTcpRequest.reqCurBvec BioVec.len
      cases r.iter.bvec with
      | nil => simp
      | cons v vs => simp
    omega

theorem Exact.chunk (h : Exact r) (hin : InData r) (hlen : r.rq.data.length = r.dataLen) {n : ℕ}
    (hn : n ≤ r.reqCurLength) :
    (r.reqCurBvec.data.drop r.iter.iovOffset).take n = (r.rq.data.drop r.dataSent).take n := by
  have hle := h.reqCurLength_le hin hlen
  have hcur : r.reqCurLength ≤ r.reqCurBvec.len - r.iter.iovOffset := Nat.min_le_left _ _
  have hcount := hin.iter.ok.length
  rw [← h.ahead, NvmeTcpRequest.ahead, List.take_append_of_le_length (by omega), IovIter.bytes,
    List.take_take, Nat.min_eq_left (by omega)]
  have hhead := hin.iter.ok.head hin.iter.pos
  unfold NvmeTcpRequest.reqCurBvec at *
  cases hb : r.iter.bvec with
  | nil => simp [hb, BioVec.len] at hhead
  | cons v vs =>
    simp only [hb, List.headD_cons, BioVec.len] at hcur hhead ⊢
    rw [List.flatMap_cons, List.drop_append_of_le_length (by omega),
      List.take_append_of_le_length (by simp; omega)]

theorem Exact.advanceReq (h : Exact r) (hin : InData r) (hlen : r.rq.data.length = r.dataLen)
    {n : ℕ} (hn : n ≤ r.reqCurLength) (hmore : r.dataSent + n < r.dataLen) :
    Exact (r.advanceReq n) := by
  have hle := h.reqCurLength_le hin hlen
  obtain ⟨hrq, -, hsent, -, -, -, -⟩ := advanceReq_fields r n
  have hahead := (advanceReq_ahead hin.iter hmore).1
  have hc := IovIter.advance_count r.iter n
  refine ⟨?_, ?_, ?_⟩
  · rw [hahead, Nat.min_eq_left (by omega), h.ahead, List.drop_drop, hrq, hsent]
  all_goals
    by_cases hz : (r.iter.advance n).count = 0
  · obtain ⟨b, bs, hs, hlater, -, hadv⟩ := advanceReq_next hin.iter hmore hz
    intro hl
    have hbs : bs ≠ [] := by simpa [hadv, NvmeTcpRequest.later, hs] using hl
    have hwb : b.Whole :=
      h.rest b (by rw [hlater, List.dropLast_cons_of_ne_nil hbs]; exact List.mem_cons_self)
    rw [hadv]
    exact hwb
  · rw [advanceReq_within hz]
    intro hl
    exact advance_whole hin.iter.ok (by omega) (h.cur hl)
  · obtain ⟨b, bs, hs, hlater, -, hadv⟩ := advanceReq_next hin.iter hmore hz
    intro b' hb'
    simp only [hadv, NvmeTcpRequest.later, hs, List.tail_cons] at hb'
    have hbs : bs ≠ [] := by rintro rfl; simp at hb'
    refine h.rest b' ?_
    rw [hlater, List.dropLast_cons_of_ne_nil hbs]
    exact List.mem_cons_of_mem _ hb'
  · rw [advanceReq_within hz]
    exact h.rest

end BlkSwitch.Host
