import BlkSwitch.Spec.HostRequest

/-! Walking the data of a host request. `ahead` is what the iterator of a request still stands
in front of; advancing drops bytes from it, but never more than the current bio holds. -/

namespace BlkSwitch.Host

/-- The bytes the iterator covers: `count` of them, from `iov_offset` on. -/
def IovIter.bytes (it : IovIter) : List Byte :=
  ((it.bvec.flatMap BioVec.data).drop it.iovOffset).take it.count

structure IterOk (it : IovIter) : Prop where
  segs : ∀ v ∈ it.bvec, v.data ≠ []
  fits : 0 < it.count → it.iovOffset + it.count ≤ (it.bvec.flatMap BioVec.data).length
  head : 0 < it.count → it.iovOffset < (it.bvec.headD ⟨[]⟩).len

theorem IterOk.length {it : IovIter} (h : IterOk it) : it.bytes.length = it.count := by
  simp only [IovIter.bytes, List.length_take, List.length_drop]
  rcases Nat.eq_zero_or_pos it.count with h0 | hpos
  · omega
  · have := h.fits hpos
    omega

theorem bvecAdvance_mem {v : BioVec} :
    ∀ (vs : List BioVec) (off n : ℕ), v ∈ (bvecAdvance vs off n).1 → v ∈ vs := by
  intro vs
  induction vs with
  | nil => intro off n h; exact h
  | cons w ws ih =>
    intro off n h
    unfold bvecAdvance at h
    split_ifs at h with hn
    · exact h
    · exact List.mem_cons_of_mem _ (ih _ _ h)

theorem bvecAdvance_bytes :
    ∀ (vs : List BioVec) (off n : ℕ), off + n ≤ (vs.flatMap BioVec.data).length →
      off ≤ (vs.headD ⟨[]⟩).len →
      ((bvecAdvance vs off n).1.flatMap BioVec.data).drop (bvecAdvance vs off n).2 =
        (vs.flatMap BioVec.data).drop (off + n) := by
  intro vs
  induction vs with
  | nil => intro off n h _; simp [bvecAdvance]
  | cons v vs ih =>
    intro off n h hoff
    have hoff' : off ≤ v.data.length := hoff
    unfold bvecAdvance
    split_ifs with hn
    · rfl
    · simp only [BioVec.len] at hn ⊢
      simp only [List.flatMap_cons, List.length_append] at h ⊢
      have hv : (v.data.drop (off + n)) = [] := List.drop_eq_nil_of_le (by omega)
      rw [ih 0 (n - (v.data.length - off)) (by omega) (Nat.zero_le _), List.drop_append, hv,
        List.nil_append]
      congr 1
      omega

theorem bvecAdvance_head :
    ∀ (vs : List BioVec) (off n : ℕ), (∀ v ∈ vs, v.data ≠ []) →
      off + n < (vs.flatMap BioVec.data).length →
      (bvecAdvance vs off n).2 < ((bvecAdvance vs off n).1.headD ⟨[]⟩).len := by
  intro vs
  induction vs with
  | nil => intro off n _ h; simp at h
  | cons v vs ih =>
    intro off n hseg h
    unfold bvecAdvance
    split_ifs with hn
    · change off + n < v.len
      omega
    · simp only [BioVec.len] at hn ⊢
      simp only [List.flatMap_cons, List.length_append] at h
      exact ih 0 _ (fun w hw => hseg w (List.mem_cons_of_mem _ hw)) (by omega)

theorem IovIter.advance_bytes {it : IovIter} (h : IterOk it) (n : ℕ) :
    (it.advance n).bytes = it.bytes.drop (min n it.count) := by
  rcases Nat.eq_zero_or_pos it.count with h0 | hpos
  · simp [IovIter.bytes, IovIter.advance, h0]
  · have hfit := h.fits hpos
    simp only [IovIter.advance, IovIter.bytes]
    rw [bvecAdvance_bytes _ _ _ (by omega) (h.head hpos).le, List.drop_take, List.drop_drop]

theorem IovIter.advance_count (it : IovIter) (n : ℕ) : (it.advance n).count = it.count - n := by
  simp only [IovIter.advance]
  omega

theorem IterOk.advance {it : IovIter} (h : IterOk it) (n : ℕ) : IterOk (it.advance n) := by
  refine ⟨fun v hv => h.segs v (bvecAdvance_mem _ _ _ hv), fun hc => ?_, fun hc => ?_⟩
  all_goals
    rw [IovIter.advance_count] at hc
    have hfit := h.fits (by omega)
    have hmin : min n it.count = n := by omega
    have hhead := bvecAdvance_head it.bvec it.iovOffset n h.segs (by omega)
  · have hlen := congrArg List.length
      (bvecAdvance_bytes it.bvec it.iovOffset n (by omega) (h.head (by omega)).le)
    simp only [List.length_drop] at hlen
    simp only [IovIter.advance, hmin]
    omega
  · simpa only [IovIter.advance, hmin] using hhead

def NvmeTcpRequest.later (r : NvmeTcpRequest) : List Bio :=
  match r.rq.specialVec with
  | some _ => []
  | none => r.currBio.tail

/-- What is left of the request's data from the iterator on. -/
def NvmeTcpRequest.ahead (r : NvmeTcpRequest) : List Byte :=
  r.iter.bytes ++ r.later.flatMap Bio.bytes

/-- The iterator of a request that still has data to send. -/
structure IterGood (r : NvmeTcpRequest) : Prop where
  ok : IterOk r.iter
  pos : 0 < r.iter.count
  later : ∀ b ∈ r.later, b.Backed
  enough : r.dataLen - r.dataSent ≤ r.ahead.length

theorem Bio.Backed.iterOk {b : Bio} (h : b.Backed) : IterOk ⟨b.ioVec, b.bvecDone, b.size⟩ := by
  refine ⟨h.segs, fun _ => h.fits, fun _ => ?_⟩
  cases hv : b.ioVec with
  | nil =>
    have := h.fits
    have := h.pos
    simp [hv] at *
    omega
  | cons v vs => exact h.done v (by simp [hv])

theorem Bio.Backed.bytes_length {b : Bio} (h : b.Backed) : b.bytes.length = b.size :=
  h.iterOk.length

theorem advanceReq_within {r : NvmeTcpRequest} {n : ℕ} (h : (r.iter.advance n).count ≠ 0) :
    r.advanceReq n =
      { r with
        dataSent := r.dataSent + n
        pduSent := r.pduSent + n
        iter := r.iter.advance n } := by
  simp [NvmeTcpRequest.advanceReq, h]

theorem advanceReq_next {r : NvmeTcpRequest} (h : IterGood r) {n : ℕ}
    (hn : r.dataSent + n < r.dataLen) (hz : (r.iter.advance n).count = 0) :
    ∃ b bs, r.rq.specialVec = none ∧ r.later = b :: bs ∧ r.currBio.tail = b :: bs ∧
      r.advanceReq n =
        { r with
          dataSent := r.dataSent + n
          pduSent := r.pduSent + n
          currBio := b :: bs
          iter := ⟨b.ioVec, b.bvecDone, b.size⟩ } := by
  have hc := IovIter.advance_count r.iter n
  have hal : r.ahead.length = r.iter.count + (r.later.flatMap Bio.bytes).length := by
    simp [NvmeTcpRequest.ahead, h.ok.length]
  have hen := h.enough
  cases hs : r.rq.specialVec with
  | some v =>
    have : r.later = [] := by simp [NvmeTcpRequest.later, hs]
    simp [this] at hal
    omega
  | none =>
    have hlater : r.later = r.currBio.tail := by simp [NvmeTcpRequest.later, hs]
    cases ht : r.currBio.tail with
    | nil =>
      simp [hlater, ht] at hal
      omega
    | cons b bs =>
      refine ⟨b, bs, rfl, hlater.trans ht, rfl, ?_⟩
      simp [NvmeTcpRequest.advanceReq, hz, hn, NvmeTcpRequest.initIter, hs, ht]

/-- A chunk of `n` bytes moves the iterator on by `n`, and when it runs dry to the next bio;
what it steps over is never more than what the current bio holds. -/
theorem advanceReq_ahead {r : NvmeTcpRequest} (h : IterGood r) {n : ℕ}
    (hn : r.dataSent + n < r.dataLen) :
    (r.advanceReq n).ahead = r.ahead.drop (min n r.iter.count) ∧ IterGood (r.advanceReq n) := by
  have hb := IovIter.advance_bytes h.ok n
  have hc := IovIter.advance_count r.iter n
  have hlen := h.ok.length
  have hen := h.enough
  by_cases hz : (r.iter.advance n).count = 0
  · obtain ⟨b, bs, hs, hlater, -, hadv⟩ := advanceReq_next h hn hz
    have hback : b.Backed := h.later b (by simp [hlater])
    have hahead : (r.advanceReq n).ahead = r.ahead.drop (min n r.iter.count) := by
      rw [hadv, Nat.min_eq_right (by omega)]
      simp only [NvmeTcpRequest.ahead, hlater]
      rw [← hlen, List.drop_left]
      simp [IovIter.bytes, Bio.bytes, NvmeTcpRequest.later, hs]
    refine ⟨hahead, ?_, ?_, ?_, ?_⟩
    · rw [hadv]; exact hback.iterOk
    · rw [hadv]; exact hback.pos
    · intro b' hb'
      apply h.later b'
      simp only [hadv, NvmeTcpRequest.later, hs, List.tail_cons] at hb'
      simp [hlater, hb']
    · rw [hahead, List.length_drop]
      simp only [hadv]
      omega
  · have hadv := advanceReq_within hz
    have hmin : min n r.iter.count = n := by omega
    have hahead : (r.advanceReq n).ahead = r.ahead.drop (min n r.iter.count) := by
      rw [hadv]
      simp only [NvmeTcpRequest.ahead, NvmeTcpRequest.later, hb]
      rw [List.drop_append_of_le_length (by omega)]
    refine ⟨hahead, by rw [hadv]; exact h.ok.advance n, by rw [hadv]; exact Nat.pos_of_ne_zero hz,
      ?_, ?_⟩
    · rw [hadv]; exact h.later
    · rw [hahead, List.length_drop]
      simp only [hadv]
      omega

theorem Rq.blkRqBytes_eq_length {rq : Rq} (h : ∀ b ∈ rq.bio, b.Backed) :
    (rq.bio.flatMap Bio.bytes).length = rq.blkRqBytes := by
  rw [List.length_flatMap, Rq.blkRqBytes]
  exact congrArg List.sum (List.map_congr_left fun b hb => (h b hb).bytes_length)

theorem Rq.data_length {rq : Rq} (h : rq.dataLen ≠ 0) : rq.data.length = rq.dataLen := by
  unfold Rq.dataLen Rq.blkRqNrPhysSegments Rq.blkRqPayloadBytes at *
  cases hs : rq.specialVec with
  | some v => simp [Rq.data, hs, BioVec.len]
  | none =>
    simp only [hs, Option.isSome_none, Bool.false_eq_true, if_false, ne_eq, ite_not,
      ite_eq_left_iff, Classical.not_imp] at h ⊢
    obtain ⟨hn, -⟩ := h
    simp only [hn, if_false, Rq.data, hs]
    exact Rq.blkRqBytes_eq_length (rq.backed hs hn).2

/-- A freshly initialised iterator stands in front of the whole payload. -/
theorem initIter_good {r : NvmeTcpRequest} (hlen : r.dataLen = r.rq.dataLen) (hne : r.dataLen ≠ 0)
    (hbio : r.currBio = r.rq.bio) (hsent : r.dataSent = 0) :
    IterGood { r with iter := r.initIter } ∧
      NvmeTcpRequest.ahead { r with iter := r.initIter } = r.rq.data := by
  have hdl := Rq.data_length (hlen ▸ hne)
  cases hs : r.rq.specialVec with
  | some v =>
    have hv : v.data ≠ [] := r.rq.special v (by simp [hs])
    have hpos : 0 < v.data.length := List.length_pos_iff.2 hv
    have hahead : NvmeTcpRequest.ahead { r with iter := r.initIter } = r.rq.data := by
      simp [NvmeTcpRequest.ahead, NvmeTcpRequest.initIter, NvmeTcpRequest.later, hs, IovIter.bytes,
        Rq.blkRqPayloadBytes, Rq.data, BioVec.len]
    refine ⟨⟨⟨?_, ?_, ?_⟩, ?_, ?_, ?_⟩, hahead⟩
    · simpa [NvmeTcpRequest.initIter, hs] using hv
    · intro _; simp [NvmeTcpRequest.initIter, hs, Rq.blkRqPayloadBytes, BioVec.len]
    · intro _; simpa [NvmeTcpRequest.initIter, hs, BioVec.len] using hpos
    · simpa [NvmeTcpRequest.initIter, hs, Rq.blkRqPayloadBytes, BioVec.len] using hpos
    · simp [NvmeTcpRequest.later, hs]
    · rw [hahead, hdl, hsent, hlen]; simp
  | none =>
    have hn : r.rq.nrPhysSegments ≠ 0 := by
      intro h0
      simp [hlen, Rq.dataLen, Rq.blkRqNrPhysSegments, hs, h0] at hne
    obtain ⟨hcons, hback⟩ := r.rq.backed hs hn
    obtain ⟨b, bs, hb⟩ := List.exists_cons_of_ne_nil hcons
    have hbb : b.Backed := hback b (by simp [hb])
    have hahead : NvmeTcpRequest.ahead { r with iter := r.initIter } = r.rq.data := by
      simp [NvmeTcpRequest.ahead, NvmeTcpRequest.initIter, NvmeTcpRequest.later, hs, hbio, hb,
        Rq.data, IovIter.bytes, Bio.bytes]
    refine ⟨⟨?_, ?_, ?_, ?_⟩, hahead⟩
    · simpa [NvmeTcpRequest.initIter, hs, hbio, hb] using hbb.iterOk
    · simpa [NvmeTcpRequest.initIter, hs, hbio, hb] using hbb.pos
    · intro b' hb'
      exact hback b' (by simp [NvmeTcpRequest.later, hs, hbio, hb] at hb' ⊢; exact Or.inr hb')
    · rw [hahead, hdl, hsent, hlen]; simp

end BlkSwitch.Host
