import BlkSwitch.Proofs.BlkBytes

/-! The load metric of a class on a CPU: an average that moves an eighth of the way with every
request of the class. The source takes the eighths apart, each rounded down; the average still stays
among its samples, and settles under a constant one. -/

namespace BlkSwitch.Blk

section Average

def average (sample metric : ℕ) : ℕ :=
  if metric = 0 then sample else metric - metric / 8 + sample / 8

def atLeastTen (metric : ℕ) : ℕ := if metric < 10 then 0 else metric

/-- From `m` to `m'` the way is towards `x`, and not past it. -/
def Towards (x m m' : ℕ) : Prop := (m ≤ x → m ≤ m' ∧ m' ≤ x) ∧ (x ≤ m → x ≤ m' ∧ m' ≤ m)

theorem average_towards (x m : ℕ) : Towards x m (average x m) := by
  unfold Towards average
  split_ifs with hm <;> omega

theorem Towards.within {x m m' lo hi : ℕ} (h : Towards x m m') (hx : lo ≤ x ∧ x ≤ hi)
    (hm : lo ≤ m ∧ m ≤ hi) :
    lo ≤ m' ∧ m' ≤ hi := by
  rcases Nat.le_total m x with hle | hle
  · have := h.1 hle
    omega
  · have := h.2 hle
    omega

/-- A metric as it is left behind: an `int`, and nothing below 10. -/
def Rounded (metric : ℕ) : Prop := metric < 2 ^ 31 ∧ (metric = 0 ∨ 10 ≤ metric)

theorem Rounded.atLeastTen {m : ℕ} (h : Rounded m) : atLeastTen m = m := by
  unfold Blk.atLeastTen
  split_ifs with hlt
  · have := h.2
    omega
  · rfl

theorem Rounded.average {x m : ℕ} (h : Rounded m) (hx : x < 2 ^ 31) :
    Rounded (Blk.atLeastTen (average x m)) := by
  have hlt : Blk.average x m < 2 ^ 31 := by
    have := (average_towards x m).within ⟨Nat.zero_le x, Nat.le_sub_one_of_lt hx⟩
      ⟨Nat.zero_le m, Nat.le_sub_one_of_lt h.1⟩
    omega
  unfold Rounded Blk.atLeastTen
  split_ifs <;> omega

theorem atLeastTen_average {x m : ℕ} (hx : 10 ≤ x) (hm : m = 0 ∨ 10 ≤ m) :
    atLeastTen (average x m) = average x m := by
  refine if_neg (Nat.not_lt.2 ?_)
  rcases hm with rfl | hm
  · exact hx
  · exact ((average_towards x m).within ⟨hx, Nat.le_max_left x m⟩ ⟨hm, Nat.le_max_right x m⟩).1

/-- Under a constant sample the average stops, where its eighth is that of the sample: until then
every step brings it closer. -/
theorem average_settles {x : ℕ} (hx : 10 ≤ x) (m : ℕ) (hm : m = 0 ∨ 10 ≤ m) :
    ∃ N M, M / 8 = x / 8 ∧ ∀ n, N ≤ n → (fun m => atLeastTen (average x m))^[n] m = M := by
  have settled : ∀ M n, (M ≠ 0 ∧ 10 ≤ M ∧ M / 8 = x / 8) →
      (fun m => atLeastTen (average x m))^[n] M = M := by
    intro M n hM
    apply Function.iterate_fixed
    rw [atLeastTen_average hx (.inr hM.2.1), average, if_neg hM.1]
    omega
  rcases hm with rfl | hm
  · -- the first sample is taken as it is
    refine ⟨1, x, rfl, fun n hn => ?_⟩
    obtain ⟨n, rfl⟩ := Nat.exists_eq_add_of_le' hn
    rw [Function.iterate_succ_apply, atLeastTen_average hx (.inl rfl)]
    exact settled x n ⟨by omega, hx, rfl⟩
  · induction hd : (m - x) + (x - m) using Nat.strong_induction_on generalizing m with
    | _ d ih =>
      by_cases heq : m / 8 = x / 8
      · exact ⟨0, m, heq, fun n _ => settled m n ⟨by omega, hm, heq⟩⟩
      · have hnext : average x m = m - m / 8 + x / 8 := if_neg (by omega)
        obtain ⟨N, M, hM, hall⟩ := ih _ (by omega) (average x m) (by omega) rfl
        refine ⟨N + 1, M, hM, fun n hn => ?_⟩
        obtain ⟨n, rfl⟩ := Nat.exists_eq_add_of_le' (Nat.le_of_add_left_le hn)
        rw [Function.iterate_succ_apply, atLeastTen_average hx (.inr hm)]
        exact hall n (by omega)

end Average

section Machine

variable {k : ℕ} {x : Int32} {m : UInt64}

theorem sample_toInt {bytes : UInt64} {bio : Bio} (hk : bytes.toNat + bio.biSize.toNat = k)
    (hlt : k < 2 ^ 31) :
    (sample bytes bio).toInt = k := by
  have hsum : (bytes.toUInt32 + bio.biSize).toNat = k := by
    rw [UInt32.toNat_add, UInt64.toNat_toUInt32]
    omega
  change (bytes.toUInt32 + bio.biSize).toBitVec.toInt = k
  rw [BitVec.toInt_eq_toNat_of_lt]
  · exact congrArg Nat.cast hsum
  · change 2 * (bytes.toUInt32 + bio.biSize).toNat < 2 ^ 32
    omega

theorem widen_toNat (h : x.toInt = k) : x.toInt64.toUInt64.toNat = k := by
  have h64 : x.toInt64.toBitVec.toInt = k := by rw [Int64.toInt_toBitVec, Int32.toInt_toInt64, h]
  have hlt := x.toInt_lt
  change x.toInt64.toBitVec.toNat = k
  rw [BitVec.toInt_eq_toNat_cond] at h64
  split_ifs at h64 <;> omega

theorem eighth_toInt (h : x.toInt = k) : (x >>> 3).toInt = (k / 8 : ℕ) := by
  rw [← Int32.toInt_toBitVec, Int32.toBitVec_shiftRight]
  simp [BitVec.toInt_sshiftRight, h, Int.shiftRight_eq_div_pow]

/-- The update of the source is that of the average. -/
theorem metricUpdate_toNat (h : x.toInt = k) (hk : k < 2 ^ 31) (hm : m.toNat < 2 ^ 31) :
    (metricUpdate m x).toNat = average k m.toNat := by
  have hzero : m = 0 ↔ m.toNat = 0 := by rw [← UInt64.toNat_inj, UInt64.toNat_zero]
  unfold metricUpdate average
  simp only [hzero]
  split_ifs
  · exact widen_toNat h
  · have hshift : (m >>> 3).toNat =
      m.toNat / 8 := by simp [UInt64.toNat_shiftRight, Nat.shiftRight_eq_div_pow]
    have hle : m >>> 3 ≤ m := by
      rw [UInt64.le_iff_toNat_le, hshift]
      exact Nat.div_le_self _ _
    rw [UInt64.toNat_add, UInt64.toNat_sub_of_le _ _ hle, hshift, widen_toNat (eighth_toInt h)]
    omega

theorem metricFloor_toNat (m : UInt64) : (metricFloor m).toNat = atLeastTen m.toNat := by
  unfold metricFloor atLeastTen
  simp only [UInt64.lt_iff_toNat_lt]
  change (if m.toNat < 10 then (0 : UInt64) else m).toNat = _
  split_ifs <;> rfl

end Machine

def metricOf (s : Switch) (thru : Bool) : ℕ → UInt64 := if thru then s.tMetric else s.lMetric

def updates (thru : Bool) (cpu : ℕ) : BlkEvent → Bool
  | .makeRequest q task bio c _ =>
    blkSwitchRequest q bio && c == cpu && blkSwitchIsThruRequest
      (blkSwitchSetIoprio task bio) == thru
  | _ => false

/-- The bytes of the class that are out on the CPU, with those of the bio. -/
def loadWith (thru : Bool) (cpu : ℕ) (s : BlkState) : BlkEvent → ℕ
  | .makeRequest _ _ bio _ _ => (bytesOf s.switch thru cpu).toNat + bio.biSize.toNat
  | _ => 0

/-- Application steering moves the application, and it was alone: the metric starts anew. -/
def leaves (p : Params) (q : RequestQueue) (bio : Bio) (cmdFlags : UInt32) (cpu : ℕ) (m : Meets)
    (s : Switch) : Bool :=
  let s := takeSnapshot p m (updateMetrics bio cpu s)
  m.lone && (appSteering (cores p q cmdFlags cpu) ⟨s.lAppstr, s.tAppstr, s.appstrApp⟩
    (blkSwitchIsThruRequest bio) cpu).isSome

/-- No idle reset fires, and a request of the class on the CPU has a sample from `lo` to `hi` and
does not start the metric anew. All CPUs have a place in the arrays. -/
def Calm (p : Params) (thru : Bool) (cpu lo hi : ℕ) (s : BlkState) : BlkEvent → Prop
  | .makeRequest q task bio c m =>
    Placed p (.makeRequest q task bio c m) ∧ (blkSwitchRequest q bio = true → ¬ idle m s.switch) ∧
      (updates thru cpu (.makeRequest q task bio c m) = true →
        leaves p q (blkSwitchSetIoprio task bio) (blkSwitchSetIoprio task bio).biOpf c m
          (resetIdle p m s.switch) = false ∧
        lo ≤ loadWith thru cpu s (.makeRequest q task bio c m) ∧
        loadWith thru cpu s (.makeRequest q task bio c m) ≤ hi)
  | e => Placed p e

instance (p : Params) (thru : Bool) (cpu lo hi : ℕ) (s : BlkState) :
    DecidablePred (Calm p thru cpu lo hi s)
  | .makeRequest q task bio c m => inferInstanceAs (Decidable (
    Placed p (.makeRequest q task bio c m) ∧ (blkSwitchRequest q bio = true → ¬ idle m s.switch) ∧
      (updates thru cpu (.makeRequest q task bio c m) = true →
        leaves p q (blkSwitchSetIoprio task bio) (blkSwitchSetIoprio task bio).biOpf c m
          (resetIdle p m s.switch) = false ∧
        lo ≤ loadWith thru cpu s (.makeRequest q task bio c m) ∧
        loadWith thru cpu s (.makeRequest q task bio c m) ≤ hi)))
  | .allocRequest q c tag => inferInstanceAs (Decidable (Placed p (.allocRequest q c tag)))
  | .merge _ _ _ _ => .isTrue trivial
  | .endRequest _ => .isTrue trivial

section Steps

variable {p : Params} {q : RequestQueue} {bio : Bio} {flags : UInt32} {c cpu : ℕ} {m : Meets}
    {thru : Bool}

theorem metricOf_updateMetrics (bio : Bio) (c : ℕ) (s : Switch) (thru : Bool) (cpu : ℕ) :
    metricOf (updateMetrics bio c s) thru cpu =
      if c = cpu then
        metricFloor (if blkSwitchIsThruRequest bio = thru then
          metricUpdate (metricOf s thru cpu)
    (sample (bytesOf s thru cpu) bio) else metricOf s thru cpu)
      else metricOf s thru cpu := by
  unfold updateMetrics metricOf bytesOf
  by_cases hc : c = cpu
  · subst hc
    cases thru <;> cases hb : blkSwitchIsThruRequest bio <;> simp
  · cases thru <;> simp [hc, Ne.symm hc]

theorem metricOf_takeSnapshot (p : Params) (m : Meets) (s : Switch) (thru : Bool) :
    metricOf (takeSnapshot p m s) thru = metricOf s thru := by
  unfold takeSnapshot
  dsimp only
  split_ifs <;> rfl

theorem metricOf_leaveCore (bio : Bio) (c : ℕ) (m : Meets) (s : Switch) (thru : Bool) (cpu : ℕ) :
    metricOf (leaveCore bio c m s) thru cpu =
      if m.lone = true ∧ c = cpu ∧ blkSwitchIsThruRequest bio = thru then 0
      else metricOf s thru cpu := by
  unfold leaveCore metricOf
  by_cases hc : c = cpu
  · subst hc
    cases m.lone <;> cases thru <;> cases hb : blkSwitchIsThruRequest bio <;> simp
  · cases m.lone <;> cases thru <;> cases hb : blkSwitchIsThruRequest bio <;> simp [hc, Ne.symm hc]

/-- Application steering changes a metric by the update alone, unless it starts this one anew. -/
theorem metricOf_appStage {s : Switch} (hstay : c = cpu → blkSwitchIsThruRequest bio = thru →
      leaves p q bio flags c m s = false) :
    metricOf (appStage p q bio flags c m s) thru cpu = metricOf
      (updateMetrics bio c s) thru cpu := by
  have hsnap := congrFun (metricOf_takeSnapshot p m (updateMetrics bio c s) thru) cpu
  unfold appStage
  unfold leaves at hstay
  dsimp only at hstay ⊢
  split
  · next t ht =>
    rw [metricOf_leaveCore, if_neg, hsnap]
    rintro ⟨hlone, hc, hthru⟩
    have hleft := hstay hc hthru
    rw [ht, hlone] at hleft
    cases hleft
  · exact hsnap

theorem metricOf_resetIdle {s : Switch} (hidle : ¬ idle m s) (thru : Bool) :
    metricOf (resetIdle p m s) thru = metricOf s thru := by
  unfold resetIdle
  rw [if_neg hidle]
  rfl

theorem metricOf_charge (bio : Bio) (c : ℕ) (s : Switch) (thru : Bool) :
    metricOf (charge bio c s) thru = metricOf s thru := by
  unfold charge
  split_ifs <;> rfl

theorem metricOf_endRequest (rq : Request) (s : Switch) (thru : Bool) :
    metricOf (blkMqEndRequest rq s) thru = metricOf s thru := by
  unfold blkMqEndRequest
  split
  · split_ifs <;> rfl
  · rfl

theorem steer_switch {s s' : Switch} {cpu' : ℕ} {st : Bool} (hreq : blkSwitchRequest q bio = true)
    (h : steer p q bio flags c m s = some (cpu', st, s')) :
    s' = if 2 ≤ p.blkSwitchOn then appStage p q bio flags c m (resetIdle p m s)
      else resetIdle p m s := by
  unfold steer at h
  rw [if_pos hreq] at h
  simp only [decide_eq_true_eq] at h
  generalize hs : (if 2 ≤ p.blkSwitchOn then appStage p q bio flags c m (resetIdle p m s)
    else resetIdle p m s) = s₁ at h ⊢
  split_ifs at h
  all_goals first
    | obtain ⟨t, -, ht⟩ := Option.map_eq_some_iff.1 h
      cases ht
      rfl
    | cases h
      rfl

theorem metric_makeRequest {s s' : BlkState} {task : Task} {lo hi : ℕ} (hon : 2 ≤ p.blkSwitchOn)
    (hcalm : Calm p thru cpu lo hi s (.makeRequest q task bio c m))
    (hstep : blkStep p s (.makeRequest q task bio c m) = some s') :
    metricOf s'.switch thru cpu =
      if blkSwitchRequest q bio = true ∧ c = cpu then
        metricFloor (if blkSwitchIsThruRequest (blkSwitchSetIoprio task bio) = thru then
          metricUpdate (metricOf s.switch thru cpu) (sample (bytesOf s.switch thru cpu) bio)
          else metricOf s.switch thru cpu)
      else metricOf s.switch thru cpu := by
  obtain ⟨-, b, cpu', st, sw, rfl, hsteer, hs'⟩ := makeRequest_cases hstep
  have hsw : metricOf s'.switch thru cpu = metricOf sw thru cpu := by
    rcases hs' with ⟨-, rfl⟩ | ⟨tag, -, rfl⟩
    · rfl
    · dsimp only
      split_ifs
      · rw [metricOf_charge]
      · rfl
  have hsame : blkSwitchRequest q (blkSwitchSetIoprio task bio) = blkSwitchRequest q bio := by
    rw [blkSwitchRequest, setIoprio_biSize, blkSwitchRequest]
  rw [hsw]
  cases hreq : blkSwitchRequest q bio with
  | false =>
    rw [steer_other (hsame.trans hreq) hsteer]
    simp
  | true =>
    have hidle := hcalm.2.1 hreq
    have hbytes : bytesOf (resetIdle p m s.switch) thru cpu = bytesOf s.switch thru cpu := by
      rw [bytesOf_resetIdle, if_neg fun h => hidle h.1]
    have hsample : sample (bytesOf s.switch thru cpu) (blkSwitchSetIoprio task bio) =
        sample (bytesOf s.switch thru cpu) bio := by
      rw [sample, setIoprio_biSize, sample]
    rw [steer_switch (hsame.trans hreq) hsteer, if_pos hon, metricOf_appStage,
      metricOf_updateMetrics, metricOf_resetIdle hidle, hbytes, hsample]
    · simp only [true_and]
    · intro hc hthru
      exact (hcalm.2.2 (by simp [updates, hreq, hc, hthru])).1

/-- A request of the class on the CPU updates the metric with its sample, and any other event leaves
it. -/
theorem metric_step {s s' : BlkState} {e : BlkEvent} {lo hi : ℕ} (hon : 2 ≤ p.blkSwitchOn)
    (hhi : hi < 2 ^ 31) (hm : Rounded (metricOf s.switch thru cpu).toNat)
    (hcalm : Calm p thru cpu lo hi s e) (hstep : blkStep p s e = some s') :
    (updates thru cpu e = true ∧ lo ≤ loadWith thru cpu s e ∧ loadWith thru cpu s e ≤ hi ∧
      (metricOf s'.switch thru cpu).toNat =
        atLeastTen (average (loadWith thru cpu s e) (metricOf s.switch thru cpu).toNat)) ∨
    (updates thru cpu e = false ∧ metricOf s'.switch thru cpu = metricOf s.switch thru cpu) := by
  cases e with
  | makeRequest q task bio c m =>
    have hmetric := metric_makeRequest hon hcalm hstep
    have hupd : updates thru cpu (.makeRequest q task bio c m) = true ↔
        (blkSwitchRequest q bio = true ∧ c = cpu) ∧
          blkSwitchIsThruRequest (blkSwitchSetIoprio task bio) = thru := by
      simp [updates]
    by_cases hc : blkSwitchRequest q bio = true ∧ c = cpu
    · rw [if_pos hc] at hmetric
      by_cases hthru : blkSwitchIsThruRequest (blkSwitchSetIoprio task bio) = thru
      · obtain ⟨-, hlo, hle⟩ := hcalm.2.2 (hupd.2 ⟨hc, hthru⟩)
        have hload := lt_of_le_of_lt hle hhi
        refine .inl ⟨hupd.2 ⟨hc, hthru⟩, hlo, hle, ?_⟩
        rw [hmetric, if_pos hthru, metricFloor_toNat,
          metricUpdate_toNat (sample_toInt rfl hload) hload hm.1]
        rfl
      · -- the metric of the other class is rounded too
        refine .inr ⟨Bool.eq_false_iff.2 fun h => hthru (hupd.1 h).2, ?_⟩
        rw [hmetric, if_neg hthru, ← UInt64.toNat_inj, metricFloor_toNat, hm.atLeastTen]
    · rw [if_neg hc] at hmetric
      exact .inr ⟨Bool.eq_false_iff.2 fun h => hc (hupd.1 h).1, hmetric⟩
  | allocRequest q c tag =>
    by_cases hroom : HasRoom s
    · simp only [blkStep, if_pos hroom] at hstep
      cases hstep
      exact .inr ⟨rfl, rfl⟩
    · simp only [blkStep, if_neg hroom] at hstep
      cases hstep
  | merge i task bio front =>
    obtain ⟨rq, b, -, -, -, -, rfl⟩ := merge_cases hstep
    exact .inr ⟨rfl, rfl⟩
  | endRequest i =>
    obtain ⟨rq, -, rfl⟩ := Option.map_eq_some_iff.1 hstep
    exact .inr ⟨rfl, congrFun (metricOf_endRequest rq s.switch thru) cpu⟩

end Steps

def blkFrom (p : Params) (s : BlkState) : Runs.System BlkState BlkEvent where
  init := s
  step := blkStep p

section Run

variable {p : Params} {thru : Bool} {cpu lo hi : ℕ} {s₀ s : BlkState} {es : List BlkEvent}

/-- The metric is 0 or among the samples, and with samples of at least 10 it is 0 only before the
first. -/
structure AmongSamples (thru : Bool) (cpu lo hi : ℕ) (es : List BlkEvent) (s : BlkState) :
    Prop where
  rounded : Rounded (metricOf s.switch thru cpu).toNat
  among : (metricOf s.switch thru cpu).toNat = 0 ∨
    lo ≤ (metricOf s.switch thru cpu).toNat ∧ (metricOf s.switch thru cpu).toNat ≤ hi
  pos : 10 ≤ lo → 0 < es.countP (updates thru cpu) → (metricOf s.switch thru cpu).toNat ≠ 0

theorem metric_run (hon : 2 ≤ p.blkSwitchOn) (hhi : hi < 2 ^ 31)
    (h0 : metricOf s₀.switch thru cpu = 0) (h : (blkFrom p s₀).RunIn (Calm p thru cpu lo hi) es s) :
    AmongSamples thru cpu lo hi es s := by
  induction h with
  | nil =>
    have hzero : (metricOf s₀.switch thru cpu).toNat = 0 := congrArg UInt64.toNat h0
    exact ⟨⟨hzero.trans_lt (Nat.two_pow_pos 31), .inl hzero⟩, .inl hzero,
      fun _ h => absurd h (by simp)⟩
  | @snoc es s e s' hrun hcalm hstep ih =>
    rcases metric_step hon hhi ih.rounded hcalm hstep with ⟨-, hlo, hle, hm⟩ | ⟨hupd, hm⟩
    · have hwithin : lo ≤ average (loadWith thru cpu s e) (metricOf s.switch thru cpu).toNat ∧
          average (loadWith thru cpu s e) (metricOf s.switch thru cpu).toNat ≤ hi := by
        rcases ih.among with hzero | hmem
        · rw [hzero]
          exact ⟨hlo, hle⟩
        · exact (average_towards _ _).within ⟨hlo, hle⟩ hmem
      refine ⟨?_, ?_, fun hten _ => ?_⟩
      · rw [hm]
        exact ih.rounded.average (lt_of_le_of_lt hle hhi)
      · unfold atLeastTen at hm
        split_ifs at hm <;> omega
      · unfold atLeastTen at hm
        split_ifs at hm <;> omega
    · refine ⟨hm ▸ ih.rounded, hm ▸ ih.among, ?_⟩
      rw [hm, List.countP_append, List.countP_singleton, hupd]
      exact ih.pos

theorem metric_constant (hon : 2 ≤ p.blkSwitchOn) {x : ℕ} (hx : x < 2 ^ 31)
    (h0 : Rounded (metricOf s₀.switch thru cpu).toNat)
    (h : (blkFrom p s₀).RunIn (Calm p thru cpu x x) es s) :
    Rounded (metricOf s.switch thru cpu).toNat ∧ (metricOf s.switch thru cpu).toNat =
      (fun m => atLeastTen (average x m))^[es.countP (updates thru cpu)]
    (metricOf s₀.switch thru cpu).toNat := by
  induction h with
  | nil => exact ⟨h0, rfl⟩
  | @snoc es s e s' hrun hcalm hstep ih =>
    obtain ⟨hround, hiter⟩ := ih
    rw [List.countP_append, List.countP_singleton]
    rcases metric_step hon hx hround hcalm hstep with ⟨hupd, hlo, hle, hm⟩ | ⟨hupd, hm⟩
    · rw [le_antisymm hle hlo] at hm
      rw [hm, if_pos hupd, Function.iterate_succ_apply', ← hiter]
      exact ⟨hround.average hx, rfl⟩
    · rw [hm, hupd]
      exact ⟨hround, hiter⟩

end Run

/-- Whatever requests there are, the metric of a class on a CPU stays among its samples from the
first one on, goes towards each of them and not past it, settles under a constant one, and is left
alone by everything else. -/
theorem metric_moving_average (p : Params) (hon : 2 ≤ p.blkSwitchOn) (thru : Bool)
    (cpu : Fin BLK_SWITCH_NR_CPUS) (lo hi : ℕ) (hhi : hi < 2 ^ 31) (s₀ : BlkState)
    (h0 : metricOf s₀.switch thru cpu = 0) (es : List BlkEvent) (s : BlkState)
    (h : (blkFrom p s₀).RunIn (Calm p thru cpu lo hi) es s) :
    (10 ≤ lo → 0 < es.countP (updates thru cpu) →
      lo ≤ (metricOf s.switch thru cpu).toNat ∧ (metricOf s.switch thru cpu).toNat ≤ hi) ∧
    (10 ≤ lo → ∀ e s', Calm p thru cpu lo hi s e → blkStep p s e = some s' →
      updates thru cpu e = true →
      Towards (loadWith thru cpu s e) (metricOf s.switch thru cpu).toNat
        (metricOf s'.switch thru cpu).toNat) ∧
    (10 ≤ lo → ∀ x, lo ≤ x → x ≤ hi → ∃ N M, M >>> 3 = x >>> 3 ∧ ∀ es' s',
      (blkFrom p s).RunIn (Calm p thru cpu x x) es' s' → N ≤ es'.countP (updates thru cpu) →
        (metricOf s'.switch thru cpu).toNat = M) ∧
    (∀ e s', Calm p thru cpu lo hi s e → blkStep p s e = some s' → updates thru cpu e = false →
      metricOf s'.switch thru cpu = metricOf s.switch thru cpu) ∧
    ((metricOf s.switch thru cpu).toNat = 0 ∨
      lo ≤ (metricOf s.switch thru cpu).toNat ∧ (metricOf s.switch thru cpu).toNat ≤ hi) := by
  have hok := metric_run hon hhi h0 h
  refine ⟨fun hten hfirst => ?_, fun hten e s' hcalm hstep hupd => ?_, fun hten x hlo hle => ?_,
    fun e s' hcalm hstep hupd => ?_, hok.among⟩
  · exact hok.among.resolve_left (hok.pos hten hfirst)
  · rcases metric_step hon hhi hok.rounded hcalm hstep with ⟨-, hlo, -, hm⟩ | ⟨hno, -⟩
    · rw [hm, atLeastTen_average (hten.trans hlo) hok.rounded.2]
      exact average_towards _ _
    · exact absurd (hupd.symm.trans hno) (by decide)
  · obtain ⟨N, M, hM, hall⟩ := average_settles (hten.trans hlo) _ hok.rounded.2
    refine ⟨N, M, ?_, fun es' s' hrun hN => ?_⟩
    · rw [Nat.shiftRight_eq_div_pow, Nat.shiftRight_eq_div_pow]
      exact hM
    · rw [(metric_constant hon (lt_of_le_of_lt hle hhi) hok.rounded hrun).2]
      exact hall _ hN
  · rcases metric_step hon hhi hok.rounded hcalm hstep with ⟨hyes, -⟩ | ⟨-, hm⟩
    · exact absurd (hyes.symm.trans hupd) (by decide)
    · exact hm

def appParams : Params := { sampleParams with blkSwitchOn := 2 }

/-- The samples are 4096 and 8192. -/
theorem metric_moving_average_sample :
    ∃ s, (blkFrom appParams ⟨{ blankSwitch with resetMetrics := 250 }, []⟩).RunIn
        (Calm appParams true 2 4096 8192) [sampleMake 1, sampleMake 2] s ∧
      (metricOf s.switch true 2).toNat = 4608 ∧
      4096 ≤ (metricOf s.switch true 2).toNat ∧ (metricOf s.switch true 2).toNat ≤ 8192 := by
  obtain ⟨s, hrun, hm⟩ : ∃ s, (blkFrom appParams
        ⟨{ blankSwitch with resetMetrics := 250 }, []⟩).RunIn
        (Calm appParams true 2 4096 8192) [sampleMake 1, sampleMake 2] s ∧
      (metricOf s.switch true 2).toNat = 4608 :=
    Runs.System.exists_runIn_of_execIn (fun s : BlkState => (metricOf s.switch true 2).toNat = 4608)
      (by decide +kernel)
  exact ⟨s, hrun, hm, (metric_moving_average _ (by decide) true ⟨2, by decide⟩ 4096 8192 (by decide)
    _ rfl _ s hrun).1
    (by decide) (by decide)⟩

section Samples

def sampled (p : Params) (m : Meets) (s : BlkState) : Switch := resetIdle p m s.switch

/-- The bytes a sample stands for: what is out for the class of the bio on its CPU, and the bio. -/
def sampledBytes (p : Params) (s : BlkState) (task : Task) (bio : Bio) (cpu : ℕ) (m : Meets) : ℕ :=
  (bytesOf (sampled p m s) (blkSwitchIsThruRequest (blkSwitchSetIoprio task bio)) cpu).toNat +
    bio.biSize.toNat

/-- The sample of a request is the number of bytes it stands for, and the metric moves by its
eighth. -/
def SampleExact (p : Params) (s : BlkState) : BlkEvent → Prop
  | .makeRequest q task bio cpu m =>
    2 ≤ p.blkSwitchOn → blkSwitchRequest q bio = true →
      let b := blkSwitchSetIoprio task bio
      let thru := blkSwitchIsThruRequest b
      (sample (bytesOf (sampled p m s) thru cpu) b).toInt = sampledBytes p s task bio cpu m ∧
        (metricOf (updateMetrics b cpu (sampled p m s)) thru cpu).toNat =
          atLeastTen (average (sampledBytes p s task bio cpu m)
            (metricOf (sampled p m s) thru cpu).toNat)
  | _ => True

def SampleFits (p : Params) (s : BlkState) : BlkEvent → Prop
  | .makeRequest q task bio cpu m =>
    2 ≤ p.blkSwitchOn → blkSwitchRequest q bio = true → sampledBytes p s task bio cpu m < 2 ^ 31
  | _ => True

instance (p : Params) (s : BlkState) : DecidablePred (SampleExact p s)
  | .makeRequest q task bio cpu m => inferInstanceAs (Decidable (
      2 ≤ p.blkSwitchOn → blkSwitchRequest q bio = true →
        (sample (bytesOf (sampled p m s) (blkSwitchIsThruRequest (blkSwitchSetIoprio task bio)) cpu)
          (blkSwitchSetIoprio task bio)).toInt = sampledBytes p s task bio cpu m ∧
        (metricOf (updateMetrics (blkSwitchSetIoprio task bio) cpu (sampled p m s))
          (blkSwitchIsThruRequest (blkSwitchSetIoprio task bio)) cpu).toNat =
          atLeastTen (average (sampledBytes p s task bio cpu m)
            (metricOf (sampled p m s) (blkSwitchIsThruRequest (blkSwitchSetIoprio task bio))
              cpu).toNat)))
  | .allocRequest _ _ _ | .merge _ _ _ _ | .endRequest _ => .isTrue trivial

instance (p : Params) (s : BlkState) : DecidablePred (SampleFits p s)
  | .makeRequest q task bio cpu m => inferInstanceAs (Decidable (
      2 ≤ p.blkSwitchOn → blkSwitchRequest q bio = true → sampledBytes p s task bio cpu m < 2 ^ 31))
  | .allocRequest _ _ _ | .merge _ _ _ _ | .endRequest _ => .isTrue trivial

def AllRounded (s : Switch) : Prop := ∀ thru cpu, Rounded (metricOf s thru cpu).toNat

variable {p : Params} {q : RequestQueue} {bio : Bio} {flags : UInt32} {cpu : ℕ} {m : Meets}

theorem rounded_zero : Rounded (0 : UInt64).toNat := ⟨by decide, .inl rfl⟩

theorem AllRounded.resetIdle {s : Switch} (h : AllRounded s) : AllRounded (resetIdle p m s) := by
  intro thru c
  by_cases hidle : idle m s
  · have hclear : metricOf (Blk.resetIdle p m s) thru c = clearCpus (nrCpus p)
        (metricOf s thru) c := by
      unfold Blk.resetIdle
      rw [if_pos hidle]
      cases thru <;> rfl
    rw [hclear, clearCpus]
    split_ifs
    · exact rounded_zero
    · exact h thru c
  · rw [metricOf_resetIdle hidle]
    exact h thru c

theorem AllRounded.updateMetrics {s : Switch} (h : AllRounded s)
    (hfits : (bytesOf s (blkSwitchIsThruRequest bio) cpu).toNat + bio.biSize.toNat < 2 ^ 31) :
    AllRounded (updateMetrics bio cpu s) := by
  intro thru c
  rw [metricOf_updateMetrics]
  split_ifs with hc hthru
  · subst hc hthru
    rw [metricFloor_toNat, metricUpdate_toNat (sample_toInt rfl hfits) hfits (h _ _).1]
    exact (h _ _).average hfits
  · rw [metricFloor_toNat, (h thru c).atLeastTen]
    exact h thru c
  · exact h thru c

theorem AllRounded.appStage {s : Switch} (h : AllRounded s)
    (hfits : (bytesOf s (blkSwitchIsThruRequest bio) cpu).toNat + bio.biSize.toNat < 2 ^ 31) :
    AllRounded (appStage p q bio flags cpu m s) := by
  have hsnap : AllRounded (takeSnapshot p m (Blk.updateMetrics bio cpu s)) := by
    intro thru c
    rw [metricOf_takeSnapshot]
    exact h.updateMetrics hfits thru c
  unfold Blk.appStage
  dsimp only
  split
  · intro thru c
    rw [metricOf_leaveCore]
    split_ifs
    · exact rounded_zero
    · exact hsnap thru c
  · exact hsnap

theorem AllRounded.makeRequest {s s' : BlkState} {task : Task} (h : AllRounded s.switch)
    (hfits : SampleFits p s (.makeRequest q task bio cpu m))
    (hstep : blkStep p s (.makeRequest q task bio cpu m) = some s') : AllRounded s'.switch := by
  obtain ⟨-, b, cpu', st, sw, rfl, hsteer, hs'⟩ := makeRequest_cases hstep
  have hsame : blkSwitchRequest q (blkSwitchSetIoprio task bio) = blkSwitchRequest q bio := by
    rw [blkSwitchRequest, setIoprio_biSize, blkSwitchRequest]
  have hsw : AllRounded sw := by
    cases hreq : blkSwitchRequest q bio with
    | false =>
      rw [steer_other (hsame.trans hreq) hsteer]
      exact h
    | true =>
      rw [steer_switch (hsame.trans hreq) hsteer]
      split_ifs with hon
      · apply h.resetIdle.appStage
        rw [setIoprio_biSize]
        exact hfits hon hreq
      · exact h.resetIdle
  rcases hs' with ⟨-, rfl⟩ | ⟨tag, -, rfl⟩
  · exact hsw
  · dsimp only
    split_ifs
    · intro thru c
      rw [metricOf_charge]
      exact hsw thru c
    · exact hsw

theorem AllRounded.step {s s' : BlkState} {e : BlkEvent} (h : AllRounded s.switch)
    (hfits : SampleFits p s e) (hstep : blkStep p s e = some s') : AllRounded s'.switch := by
  cases e with
  | makeRequest q task bio cpu m => exact h.makeRequest hfits hstep
  | allocRequest q c tag =>
    by_cases hroom : HasRoom s
    · simp only [blkStep, if_pos hroom] at hstep
      cases hstep
      exact h
    · simp only [blkStep, if_neg hroom] at hstep
      cases hstep
  | merge i task bio front =>
    obtain ⟨rq, b, -, -, -, -, rfl⟩ := merge_cases hstep
    exact h
  | endRequest i =>
    obtain ⟨rq, -, rfl⟩ := Option.map_eq_some_iff.1 hstep
    intro thru c
    dsimp only
    rw [metricOf_endRequest]
    exact h thru c

/-- An `int` holds the sample exactly when it is below 2 GiB. -/
theorem sampleExact_iff {s : BlkState} (h : AllRounded s.switch) (e : BlkEvent) :
    SampleExact p s e ↔ SampleFits p s e := by
  cases e with
  | makeRequest q task bio cpu m =>
    refine forall₂_congr fun hon hreq => ?_
    set b := blkSwitchSetIoprio task bio with hb
    have hsize : b.biSize = bio.biSize := setIoprio_biSize task bio
    constructor
    · rintro ⟨hsample, -⟩
      have hlt := (sample (bytesOf (sampled p m s) (blkSwitchIsThruRequest b) cpu) b).toInt_lt
      rw [hsample] at hlt
      exact_mod_cast hlt
    · intro hfits
      have hk : (bytesOf (sampled p m s) (blkSwitchIsThruRequest b) cpu).toNat + b.biSize.toNat =
          sampledBytes p s task bio cpu m := by rw [hsize, sampledBytes]
      have hmetric : (metricOf (sampled p m s) (blkSwitchIsThruRequest b) cpu).toNat < 2 ^ 31 :=
        (h.resetIdle (blkSwitchIsThruRequest b) cpu).1
      refine ⟨sample_toInt hk hfits, ?_⟩
      rw [metricOf_updateMetrics, if_pos rfl, if_pos rfl, metricFloor_toNat,
        metricUpdate_toNat (sample_toInt hk hfits) hfits hmetric]
  | allocRequest _ _ _ | merge _ _ _ _ | endRequest _ => exact Iff.rfl

end Samples

/-- While every sample stands for less than 2 GiB no metric wraps, and a sample is what it stands
for exactly as long as that is so. -/
theorem samples_exact (p : Params) (es : List BlkEvent) (s : BlkState)
    (h : (blkSystem p).RunIn (fun s e => Placed p e ∧ SampleFits p s e) es s) :
    (∀ thru, ∀ cpu < BLK_SWITCH_NR_CPUS, (metricOf s.switch thru cpu).toNat < 2 ^ 31) ∧
      ∀ e, Placed p e → (SampleExact p s e ↔ SampleFits p s e) := by
  have hround : AllRounded s.switch := by
    refine h.invariant (I := fun s => AllRounded s.switch) ?_ fun s e s' hI hok hstep =>
      hI.step hok.2 hstep
    intro thru cpu
    cases thru <;> exact rounded_zero
  exact ⟨fun thru cpu _ => (hround thru cpu).1, fun e _ => sampleExact_iff hround e⟩

theorem samples_exact_writes :
    ∃ s, (blkSystem appParams).RunIn (fun s e => Placed appParams e ∧ SampleFits appParams s e)
        [sampleMake 1, sampleMake 2] s ∧ (metricOf s.switch true 2).toNat = 4608 ∧
      SampleExact appParams s (sampleMake 3) := by
  obtain ⟨s, hrun, hm, hfits⟩ : ∃ s, (blkSystem appParams).RunIn
        (fun s e => Placed appParams e ∧ SampleFits appParams s e) [sampleMake 1, sampleMake 2] s ∧
      (metricOf s.switch true 2).toNat = 4608 ∧ SampleFits appParams s (sampleMake 3) :=
    Runs.System.exists_runIn_of_execIn
      (fun s : BlkState => (metricOf s.switch true 2).toNat = 4608 ∧
      SampleFits appParams s (sampleMake 3)) (by decide +kernel)
  exact ⟨s, hrun, hm, ((samples_exact _ _ s hrun).2 _ (by decide)).2 hfits⟩

/-- A discard of 2 GiB on CPU 2. -/
def sampleDiscard : BlkEvent :=
  .makeRequest ⟨true, fun _ _ => 0⟩ ⟨none⟩ ⟨3, 0, 2147483648⟩ 2 (sampleMeets 1)

/-- On an idle machine: the sample is negative, and the metric wraps. -/
theorem discard_sample_negative :
    ¬ SampleExact appParams ⟨blankSwitch, []⟩ sampleDiscard ∧
      ∃ s, (blkSystem appParams).Run [sampleDiscard] s ∧
        (metricOf s.switch true 2).toNat = 2 ^ 64 - 2 ^ 31 := by
  refine ⟨by decide +kernel, ?_⟩
  exact Runs.System.exists_runIn_of_execIn
    (fun s : BlkState => (metricOf s.switch true 2).toNat = 2 ^ 64 - 2 ^ 31)
    (by decide +kernel)

end BlkSwitch.Blk
