import BlkSwitch.Proofs.AppSteering
import BlkSwitch.Spec.BlkMq
import Mathlib.Algebra.BigOperators.Group.List.Basic

/-! The bytes that blk-switch counts for each CPU. They are counted with a bio that gets a request
of its own and taken off with the request, so a bio that merges into a request is taken off and was
never counted. Without such bios the counts are exact. -/

namespace BlkSwitch.Blk

def bytesOf (s : Switch) (thru : Bool) : ℕ → UInt64 := if thru then s.tBytes else s.lBytes

/-- A request of the class on the CPU that request steering left alone. -/
def counted (thru : Bool) (cpu : ℕ) (rq : Request) : Bool :=
  rq.cpu == cpu && !rq.steered && rq.bio.any fun bio => blkSwitchIsThruRequest bio == thru

def share (thru : Bool) (cpu : ℕ) (rq : Request) : ℕ :=
  if counted thru cpu rq then rq.dataLen.toNat else 0

def outstanding (thru : Bool) (cpu : ℕ) (live : List Request) : ℕ := (live.map (share thru cpu)).sum

def BytesExact (s : BlkState) : Prop :=
  ∀ cpu < BLK_SWITCH_NR_CPUS, (s.switch.tBytes cpu).toNat = outstanding true cpu s.live ∧
    (s.switch.lBytes cpu).toNat = outstanding false cpu s.live

/-- The queues are those of blk-switch, whose tags start at 1, and no idle reset fires: the one of
the very first request finds nothing to reset. -/
def InScope (s : BlkState) : BlkEvent → Prop
  | .makeRequest q _ _ _ m => q.blkSwitch = true ∧ m.tag ≠ some 0 ∧
    (idle m s.switch → s.switch.resetMetrics = 0)
  | .allocRequest q _ tag => q.blkSwitch = true ∧ tag ≠ 0
  | .merge _ _ _ _ => True
  | .endRequest _ => True

/-- No bio with data merges into a request whose bytes are counted. -/
def NoMerge (s : BlkState) : BlkEvent → Prop
  | .merge i _ bio _ => bio.biSize = 0 ∨ (s.live[i]?).all (·.steered) = true
  | _ => True

instance (s : BlkState) : DecidablePred (InScope s)
  | .makeRequest q _ _ _ m =>
    inferInstanceAs (Decidable
      (q.blkSwitch = true ∧ m.tag ≠ some 0 ∧ (idle m s.switch → s.switch.resetMetrics = 0)))
  | .allocRequest q _ tag => inferInstanceAs (Decidable (q.blkSwitch = true ∧ tag ≠ 0))
  | .merge _ _ _ _ => .isTrue trivial
  | .endRequest _ => .isTrue trivial

instance (s : BlkState) : DecidablePred (NoMerge s)
  | .makeRequest _ _ _ _ _ => .isTrue trivial
  | .allocRequest _ _ _ => .isTrue trivial
  | .merge i _ bio _ =>
    inferInstanceAs (Decidable (bio.biSize = 0 ∨ (s.live[i]?).all (·.steered) = true))
  | .endRequest _ => .isTrue trivial

section Outstanding

variable {thru : Bool} {cpu i : ℕ} {live : List Request} {rq rq' : Request}

theorem share_lt (thru : Bool) (cpu : ℕ) (rq : Request) : share thru cpu rq < 2 ^ 32 := by
  unfold share
  split_ifs
  · exact rq.dataLen.toNat_lt
  · decide

theorem share_of_bio {bio : Bio} (h : rq.bio = some bio) (thru : Bool) (cpu : ℕ) :
    share thru cpu rq =
      if rq.cpu = cpu ∧ rq.steered = false ∧ blkSwitchIsThruRequest bio = thru then rq.dataLen.toNat
      else 0 := by
  simp [share, counted, h, and_assoc]

theorem share_noBio (h : rq.bio = none) (thru : Bool) (cpu : ℕ) : share thru cpu rq = 0 := by
  simp [share, counted, h]

@[simp]
theorem outstanding_append (thru : Bool) (cpu : ℕ) (live : List Request) (rq : Request) :
    outstanding thru cpu (live ++ [rq]) = outstanding thru cpu live + share thru cpu rq := by
  simp [outstanding]

theorem outstanding_erase (h : live[i]? = some rq) :
    outstanding thru cpu live = share thru cpu rq + outstanding thru cpu (live.eraseIdx i) := by
  obtain ⟨hlt, rfl⟩ := List.getElem?_eq_some_iff.1 h
  have hperm := (List.getElem_cons_eraseIdx_perm hlt).map (share thru cpu)
  unfold outstanding
  rw [← hperm.sum_eq, List.map_cons, List.sum_cons]

theorem outstanding_set (h : live[i]? = some rq) (rq' : Request) :
    outstanding thru cpu (live.set i rq') = share thru cpu rq' + outstanding thru cpu
      (live.eraseIdx i) := by
  obtain ⟨hlt, -⟩ := List.getElem?_eq_some_iff.1 h
  have hperm := (List.set_perm_cons_eraseIdx hlt rq').map (share thru cpu)
  unfold outstanding
  rw [hperm.sum_eq, List.map_cons, List.sum_cons]

theorem outstanding_lt (hlen : live.length < 2 ^ 32) : outstanding thru cpu live < 2 ^ 64 := by
  have hle : outstanding thru cpu live ≤ live.length * (2 ^ 32 - 1) := by
    clear hlen
    induction live with
    | nil => simp [outstanding]
    | cons rq live ih =>
      have hrq := share_lt thru cpu rq
      simp only [outstanding, List.map_cons, List.sum_cons, List.length_cons, Nat.succ_mul] at ih ⊢
      omega
  omega

end Outstanding

section Bytes

variable {p : Params} {q : RequestQueue} {bio : Bio} {flags : UInt32} {cpu c : ℕ} {m : Meets}
    {s s' : Switch}
  {thru : Bool}

theorem bytesOf_exact (st : BlkState) :
    BytesExact st ↔
      ∀ thru, ∀ cpu < BLK_SWITCH_NR_CPUS,
        (bytesOf st.switch thru cpu).toNat = outstanding thru cpu st.live := by
  constructor
  · intro h thru cpu hcpu
    cases thru
    · exact (h cpu hcpu).2
    · exact (h cpu hcpu).1
  · intro h cpu hcpu
    exact ⟨h true cpu hcpu, h false cpu hcpu⟩

structure KeepsBytes (s s' : Switch) : Prop where
  bytes : ∀ thru, bytesOf s' thru = bytesOf s thru
  reset : s'.resetMetrics = s.resetMetrics

theorem updateMetrics_keeps (bio : Bio) (cpu : ℕ) (s : Switch) :
    KeepsBytes s (updateMetrics bio cpu s) :=
  ⟨fun _ => rfl, rfl⟩

theorem takeSnapshot_keeps (p : Params) (m : Meets) (s : Switch) :
    KeepsBytes s (takeSnapshot p m s) := by
  unfold takeSnapshot
  dsimp only
  split_ifs <;> exact ⟨fun _ => rfl, rfl⟩

theorem leaveCore_keeps (bio : Bio) (cpu : ℕ) (m : Meets) (s : Switch) :
    KeepsBytes s (leaveCore bio cpu m s) := by
  unfold leaveCore
  split_ifs <;> exact ⟨fun _ => rfl, rfl⟩

theorem KeepsBytes.trans {s'' : Switch} (h : KeepsBytes s s') (h' : KeepsBytes s' s'') :
    KeepsBytes s s'' :=
  ⟨fun thru => (h'.bytes thru).trans (h.bytes thru), h'.reset.trans h.reset⟩

theorem appStage_keeps (p : Params) (q : RequestQueue) (bio : Bio) (flags : UInt32) (cpu : ℕ)
    (m : Meets) (s : Switch) : KeepsBytes s (appStage p q bio flags cpu m s) := by
  have hsnap := (updateMetrics_keeps bio cpu s).trans (takeSnapshot_keeps p m _)
  unfold appStage
  dsimp only
  split
  · exact hsnap.trans (leaveCore_keeps bio cpu m _)
  · exact hsnap

theorem bytesOf_resetIdle (p : Params) (m : Meets) (s : Switch) (thru : Bool) (c : ℕ) :
    bytesOf (resetIdle p m s) thru c = if idle m s ∧ c < nrCpus p then 0 else bytesOf s thru c := by
  unfold resetIdle bytesOf
  by_cases hidle : idle m s
  · cases thru <;> simp [hidle, clearCpus]
  · simp [hidle]

theorem resetIdle_reset (p : Params) (m : Meets) (s : Switch) :
    (resetIdle p m s).resetMetrics ≠ 0 := by
  have hj : 0 < msecsToJiffies p.hz BLK_SWITCH_RESET_METRICS := by
    unfold msecsToJiffies BLK_SWITCH_RESET_METRICS
    have := p.hz_pos
    omega
  unfold resetIdle
  dsimp only
  omega

theorem Placed.target {task : Task} {c fuel t : ℕ} {r : Reads}
    (hp : Placed p (.makeRequest q task bio cpu m)) (hc : c ∈ [cpu, m.currentCpu])
    (htwo : p.numOnlineNodes * 2 ≤ nrCpus p)
    (ht : requestSteering (cores p q flags c) q.blkSwitch p.blkSwitchThreshB r c fuel = some t) :
    t < BLK_SWITCH_NR_CPUS := by
  obtain ⟨hcpus, hplace⟩ := hp
  obtain ⟨hlt, hnodes⟩ := hplace c hc
  have hnode : (cores p q flags c).curNode < (cores p q flags c).nrNodes := by
    apply hnodes
    cases blkMqMapQueue flags <;> decide
  rcases requestSteering_inNode (count_ge_two htwo hnode) ht with rfl | hmem
  · exact hlt
  · exact (cpus_inside hnode hmem).1.trans_le hcpus

theorem steer_cpu {cpu' : ℕ} {st : Bool} {task : Task} {bio' : Bio}
    (hp : Placed p (.makeRequest q task bio' cpu m))
    (h : steer p q bio flags cpu m s = some (cpu', st, s')) : cpu' < BLK_SWITCH_NR_CPUS := by
  have hc : (if decide (2 ≤ p.blkSwitchOn) && m.currentCpu != cpu then m.currentCpu else cpu) ∈
      [cpu, m.currentCpu] := by
    split_ifs <;> simp
  unfold steer at h
  dsimp only at h
  generalize
    (if decide (2 ≤ p.blkSwitchOn) && m.currentCpu != cpu then m.currentCpu else cpu) = c at h hc
  split_ifs at h with hreq hthru
  all_goals first
    | obtain ⟨t, ht, heq⟩ := Option.map_eq_some_iff.1 h
      cases heq
      exact hp.target hc hthru.2.2.2 ht
    | cases h
      first
        | exact (hp.2 _ hc).1
        | exact (hp.2 cpu List.mem_cons_self).1

theorem steer_keeps {cpu' : ℕ} {st : Bool} (hreq : blkSwitchRequest q bio = true)
    (h : steer p q bio flags cpu m s = some (cpu', st, s')) : KeepsBytes (resetIdle p m s) s' := by
  have hstage : KeepsBytes (resetIdle p m s)
      (if decide (2 ≤ p.blkSwitchOn) then appStage p q bio flags cpu m (resetIdle p m s)
        else resetIdle p m s) := by
    split_ifs
    · exact appStage_keeps p q bio flags cpu m _
    · exact ⟨fun _ => rfl, rfl⟩
  unfold steer at h
  rw [if_pos hreq] at h
  dsimp only at h
  generalize (if decide (2 ≤ p.blkSwitchOn) then appStage p q bio flags cpu m (resetIdle p m s)
    else resetIdle p m s) = s1 at h hstage
  split_ifs at h
  all_goals first
    | obtain ⟨t, -, ht⟩ := Option.map_eq_some_iff.1 h
      cases ht
      exact hstage
    | cases h
      exact hstage

theorem steer_other {cpu' : ℕ} {st : Bool} (hreq : blkSwitchRequest q bio = false)
    (h : steer p q bio flags cpu m s = some (cpu', st, s')) : s' = s := by
  unfold steer at h
  rw [if_neg (by simp [hreq])] at h
  cases h
  rfl

theorem bytesOf_charge (bio : Bio) (cpu : ℕ) (s : Switch) (thru : Bool) (c : ℕ) :
    bytesOf (charge bio cpu s) thru c =
      if blkSwitchIsThruRequest bio = thru ∧ cpu = c then bytesOf s thru c + bio.biSize.toUInt64
      else bytesOf s thru c := by
  unfold charge bytesOf
  cases hb : blkSwitchIsThruRequest bio <;> cases thru <;> by_cases hc : cpu = c <;>
    simp [hc, eq_comm]

/-- The count stops at 0, as a subtraction of numbers does. -/
theorem release_toNat (bytes : ℕ → UInt64) (rq : Request) (c : ℕ) :
    (release bytes rq c).toNat =
      (bytes c).toNat - (if rq.cpu = c then rq.dataLen.toNat else 0) := by
  unfold release
  by_cases hc : rq.cpu = c
  · subst hc
    rw [Function.update_self, if_pos rfl]
    split_ifs with hle
    · rw [UInt64.toNat_sub_of_le _ _ hle, UInt32.toNat_toUInt64]
    · rw [UInt64.le_iff_toNat_le, UInt32.toNat_toUInt64] at hle
      rw [UInt64.toNat_zero]
      omega
  · rw [Function.update_of_ne (Ne.symm hc), if_neg hc, Nat.sub_zero]

theorem bytesOf_release (bio : Bio) (rq : Request) (s : Switch) (thru : Bool) (c : ℕ) :
    bytesOf (if blkSwitchIsThruRequest bio then { s with tBytes := release s.tBytes rq }
        else { s with lBytes := release s.lBytes rq }) thru c =
      if blkSwitchIsThruRequest bio = thru then release (bytesOf s thru) rq c
      else bytesOf s thru c := by
  cases hb : blkSwitchIsThruRequest bio <;> cases thru <;> rfl

theorem bytesOf_endRequest {rq : Request} (hsw : rq.blkSwitch = true) (htag : rq.tag ≠ 0)
    (s : Switch) (thru : Bool) (c : ℕ) :
    (bytesOf (blkMqEndRequest rq s) thru c).toNat = (bytesOf s thru c).toNat - share thru c rq := by
  unfold blkMqEndRequest
  cases hbio : rq.bio with
  | none => rw [share_noBio hbio, Nat.sub_zero]
  | some bio =>
    rw [share_of_bio hbio]
    dsimp only
    by_cases hguard : rq.blkSwitch = true ∧ rq.dataLen ≠ 0 ∧ rq.steered = false ∧ rq.tag ≠ 0
    · rw [if_pos hguard, bytesOf_release]
      by_cases hthru : blkSwitchIsThruRequest bio = thru
      · rw [if_pos hthru, release_toNat]
        simp [hthru, hguard.2.2.1]
      · simp [hthru]
    · -- a request without bytes, or one that is not counted
      rw [if_neg hguard]
      split_ifs with hcounted
      · have hzero : rq.dataLen = 0 := by
          by_contra hne
          exact hguard ⟨hsw, hne, hcounted.2.1, htag⟩
        simp [hzero]
      · rfl

end Bytes

/-- Between two events: the counts are exact, and nothing is counted before the first reset. -/
structure BlkOk (s : BlkState) : Prop where
  exact : ∀ thru cpu, (bytesOf s.switch thru cpu).toNat = outstanding thru cpu s.live
  fresh : s.switch.resetMetrics = 0 → ∀ thru cpu, outstanding thru cpu s.live = 0
  queue : ∀ rq ∈ s.live, rq.blkSwitch = true ∧ rq.tag ≠ 0 ∧ rq.cpu < BLK_SWITCH_NR_CPUS
  room : s.live.length < 2 ^ 32

section Steps

variable {p : Params} {s s' : BlkState}

theorem setIoprio_biSize (task : Task) (bio : Bio) :
    (blkSwitchSetIoprio task bio).biSize = bio.biSize := by
  unfold blkSwitchSetIoprio
  dsimp only
  split_ifs <;> rfl

/-- Steering leaves the counts as they are: there is nothing to reset when it resets. -/
theorem BlkOk.steer {q : RequestQueue} {bio : Bio} {flags : UInt32} {cpu cpu' : ℕ} {m : Meets}
    {st : Bool} {sw : Switch} (h : BlkOk s) (hidle : idle m s.switch → s.switch.resetMetrics = 0)
    (hsteer : steer p q bio flags cpu m s.switch = some (cpu', st, sw)) (thru : Bool) (c : ℕ) :
    bytesOf sw thru c = bytesOf s.switch thru c := by
  cases hreq : blkSwitchRequest q bio with
  | false => rw [steer_other hreq hsteer]
  | true =>
    rw [(steer_keeps hreq hsteer).bytes, bytesOf_resetIdle]
    split_ifs with hreset
    · have hzero := h.exact thru c
      rw [h.fresh (hidle hreset.1)] at hzero
      exact (UInt64.toNat_inj.1 hzero).symm
    · rfl

theorem toNat_add_lt {a : UInt64} {b : UInt32} (h : a.toNat + b.toNat < 2 ^ 64) :
    (a + b.toUInt64).toNat = a.toNat + b.toNat := by
  rw [UInt64.toNat_add, UInt32.toNat_toUInt64, Nat.mod_eq_of_lt h]

theorem charge_reset (bio : Bio) (cpu : ℕ) (sw : Switch) :
    (charge bio cpu sw).resetMetrics = sw.resetMetrics := by
  unfold charge
  split_ifs <;> rfl

def newRequest (q : RequestQueue) (bio : Bio) (cpu tag : ℕ) (steered : Bool) : Request :=
  { cpu := cpu
    blkSwitch := q.blkSwitch
    tag := tag
    steered := steered
    bio := some bio
    dataLen := bio.biSize }

theorem makeRequest_cases {q : RequestQueue} {task : Task} {bio : Bio} {cpu : ℕ} {m : Meets}
    (hstep : blkStep p s (.makeRequest q task bio cpu m) = some s') :
    HasRoom s ∧ ∃ b cpu' st sw, b = blkSwitchSetIoprio task bio ∧
      steer p q b b.biOpf cpu m s.switch = some (cpu', st, sw) ∧
      ((m.tag = none ∧ s' = ⟨sw, s.live⟩) ∨ ∃ tag, m.tag = some tag ∧
        s' = ⟨if q.blkSwitch && !st then charge b cpu' sw else sw,
        s.live ++ [newRequest q b cpu' tag st]⟩) := by
  by_cases hroom : HasRoom s
  · refine ⟨hroom, blkSwitchSetIoprio task bio, ?_⟩
    simp only [blkStep, if_pos hroom] at hstep
    obtain ⟨res, hres, rfl⟩ := Option.map_eq_some_iff.1 hstep
    obtain ⟨⟨cpu', st, sw⟩, hsteer, rfl⟩ := Option.map_eq_some_iff.1 hres
    refine ⟨cpu', st, sw, rfl, hsteer, ?_⟩
    cases htag : m.tag with
    | none => exact .inl ⟨rfl, rfl⟩
    | some tag => exact .inr ⟨tag, rfl, rfl⟩
  · simp only [blkStep, if_neg hroom] at hstep
    cases hstep

theorem BlkOk.makeRequest {q : RequestQueue} {task : Task} {bio : Bio} {cpu : ℕ} {m : Meets}
    (h : BlkOk s) (hplaced : Placed p (.makeRequest q task bio cpu m))
    (hscope : InScope s (.makeRequest q task bio cpu m))
    (hstep : blkStep p s (.makeRequest q task bio cpu m) = some s') : BlkOk s' := by
  obtain ⟨hsw, htag, hidle⟩ := hscope
  obtain ⟨hroom, b, cpu', st, sw, -, hsteer, hs'⟩ := makeRequest_cases hstep
  have hbytes := h.steer hidle hsteer
  have hfresh : sw.resetMetrics = 0 → b.biSize = 0 ∧ s.switch.resetMetrics = 0 := by
    intro hzero
    cases hreq : blkSwitchRequest q b with
    | true => exact absurd ((steer_keeps hreq hsteer).reset ▸ hzero) (resetIdle_reset p m _)
    | false =>
      rw [steer_other hreq hsteer] at hzero
      refine ⟨?_, hzero⟩
      simp only [blkSwitchRequest, hsw, Bool.true_and, decide_eq_false_iff_not,
        UInt32.not_lt] at hreq
      exact UInt32.le_zero_iff.1 hreq
  rcases hs' with ⟨-, rfl⟩ | ⟨tag, htg, rfl⟩
  · refine ⟨fun thru c => ?_, fun hzero => h.fresh (hfresh hzero).2, h.queue, h.room⟩
    rw [hbytes]
    exact h.exact thru c
  · have htag0 : tag ≠ 0 := fun h0 => htag (h0 ▸ htg)
    have hshare : ∀ thru c, share thru c (newRequest q b cpu' tag st) =
        if cpu' = c ∧ st = false ∧ blkSwitchIsThruRequest b = thru then b.biSize.toNat else 0 :=
      fun thru c => share_of_bio rfl thru c
    have hlen : (s.live ++ [newRequest q b cpu' tag st]).length < 2 ^ 32 := by
      rw [List.length_append]
      exact hroom
    constructor
    · intro thru c
      have hlt := @outstanding_lt thru c _ hlen
      rw [outstanding_append, ← h.exact thru c, hshare] at hlt ⊢
      rw [hsw, Bool.true_and]
      cases st with
      | true => simp [hbytes]
      | false =>
        simp only [Bool.not_false, ↓reduceIte, bytesOf_charge, hbytes, true_and] at hlt ⊢
        by_cases hmine : blkSwitchIsThruRequest b = thru ∧ cpu' = c
        · rw [if_pos hmine, if_pos hmine.symm] at *
          exact toNat_add_lt hlt
        · rw [if_neg hmine, if_neg fun hboth => hmine hboth.symm]
          rfl
    · intro hzero thru c
      have hreset : sw.resetMetrics = 0 := by
        dsimp only at hzero
        split_ifs at hzero
        · rw [← charge_reset b cpu']
          exact hzero
        · exact hzero
      obtain ⟨hsize, hbefore⟩ := hfresh hreset
      rw [outstanding_append, h.fresh hbefore, hshare, hsize]
      simp
    · intro rq' hmem
      rcases List.mem_append.1 hmem with hmem | hmem
      · exact h.queue rq' hmem
      · rw [List.mem_singleton.1 hmem]
        exact ⟨hsw, htag0, steer_cpu hplaced hsteer⟩
    · exact hlen

theorem BlkOk.allocRequest {q : RequestQueue} {cpu tag : ℕ} (h : BlkOk s)
    (hplaced : Placed p (.allocRequest q cpu tag)) (hscope : InScope s (.allocRequest q cpu tag))
    (hstep : blkStep p s (.allocRequest q cpu tag) = some s') : BlkOk s' := by
  by_cases hroom : HasRoom s
  · simp only [blkStep, if_pos hroom, Option.some.injEq] at hstep
    subst hstep
    have hsame : ∀ thru c,
        outstanding thru c (s.live ++ [blkMqAllocRequest q cpu tag]) = outstanding thru c s.live :=
      fun thru c => by rw [outstanding_append, share_noBio rfl, Nat.add_zero]
    refine ⟨fun thru c => (h.exact thru c).trans (hsame thru c).symm,
      fun hzero thru c => (hsame thru c).trans (h.fresh hzero thru c), fun rq hmem => ?_, ?_⟩
    · rcases List.mem_append.1 hmem with hmem | hmem
      · exact h.queue rq hmem
      · rw [List.mem_singleton.1 hmem]
        exact ⟨hscope.1, hscope.2, hplaced⟩
    · rw [List.length_append]
      exact hroom
  · simp only [blkStep, if_neg hroom] at hstep
    cases hstep

theorem merge_cases {i : ℕ} {task : Task} {bio : Bio} {front : Bool}
    (hstep : blkStep p s (.merge i task bio front) = some s') :
    ∃ rq b, s.live[i]? = some rq ∧ rq.bio = some b ∧
      b.biIoprio = (blkSwitchSetIoprio task bio).biIoprio ∧
      rq.dataLen.toNat + bio.biSize.toNat < 2 ^ 32 ∧ s' = ⟨s.switch, s.live.set i { rq with
        bio := some (if front then blkSwitchSetIoprio task bio else b), dataLen :=
          rq.dataLen + bio.biSize }⟩ := by
  simp only [blkStep] at hstep
  obtain ⟨rq, hrq, hstep⟩ := Option.bind_eq_some_iff.1 hstep
  obtain ⟨rq', hmerge, rfl⟩ := Option.map_eq_some_iff.1 hstep
  obtain ⟨b, hb, hmerge⟩ := Option.bind_eq_some_iff.1 hmerge
  rw [setIoprio_biSize] at hmerge
  by_cases hok : b.biIoprio = (blkSwitchSetIoprio task bio).biIoprio ∧
    rq.dataLen.toNat + bio.biSize.toNat < 2 ^ 32
  · rw [if_pos hok] at hmerge
    cases hmerge
    exact ⟨rq, b, hrq, hb, hok.1, hok.2, rfl⟩
  · rw [if_neg hok] at hmerge
    cases hmerge

/-- The class of a request is that of any bio in it, and its size grows by the bio's. -/
theorem share_merge {rq : Request} {b bio : Bio} {front : Bool} (hb : rq.bio = some b)
    (hprio : b.biIoprio = bio.biIoprio) (size : UInt32)
    (hlt : rq.dataLen.toNat + size.toNat < 2 ^ 32) (thru : Bool) (c : ℕ) :
    share thru c { rq with bio := some (if front then bio else b), dataLen := rq.dataLen + size } =
      share thru c rq +
        if rq.cpu = c ∧ rq.steered = false ∧ blkSwitchIsThruRequest b = thru then size.toNat
        else 0 := by
  have hclass : blkSwitchIsThruRequest (if front then bio else b) = blkSwitchIsThruRequest b := by
    split_ifs
    · unfold blkSwitchIsThruRequest
      rw [hprio]
    · rfl
  have hadd : (rq.dataLen + size).toNat = rq.dataLen.toNat + size.toNat := by
    rw [UInt32.toNat_add, Nat.mod_eq_of_lt hlt]
  rw [share_of_bio rfl, share_of_bio hb]
  dsimp only
  rw [hclass, hadd]
  split_ifs <;> rfl

theorem BlkOk.merge {i : ℕ} {task : Task} {bio : Bio} {front : Bool} (h : BlkOk s)
    (hno : NoMerge s (.merge i task bio front))
    (hstep : blkStep p s (.merge i task bio front) = some s') : BlkOk s' := by
  obtain ⟨rq, b, hrq, hb, hprio, hlt, rfl⟩ := merge_cases hstep
  have hsame : ∀ thru c, outstanding thru c (s.live.set i { rq with
      bio := some (if front then blkSwitchSetIoprio task bio else b), dataLen :=
        rq.dataLen + bio.biSize }) =
        outstanding thru c s.live := by
    intro thru c
    rw [outstanding_set hrq, share_merge hb hprio _ hlt, outstanding_erase hrq]
    rcases hno with hsize | hsteered
    · simp [hsize]
    · rw [hrq, Option.all_some] at hsteered
      simp [hsteered]
  refine ⟨fun thru c => (h.exact thru c).trans (hsame thru c).symm,
    fun hzero thru c => (hsame thru c).trans (h.fresh hzero thru c), fun rq' hmem => ?_, ?_⟩
  · rcases List.mem_or_eq_of_mem_set hmem with hmem | rfl
    · exact h.queue rq' hmem
    · exact h.queue rq (List.mem_of_getElem? hrq)
  · rw [List.length_set]
    exact h.room

theorem BlkOk.endRequest {i : ℕ} (h : BlkOk s) (hstep : blkStep p s (.endRequest i) = some s') :
    BlkOk s' := by
  simp only [blkStep] at hstep
  obtain ⟨rq, hrq, rfl⟩ := Option.map_eq_some_iff.1 hstep
  obtain ⟨hsw, htag, -⟩ := h.queue rq (List.mem_of_getElem? hrq)
  have hreset : (blkMqEndRequest rq s.switch).resetMetrics = s.switch.resetMetrics := by
    unfold blkMqEndRequest
    split
    · split_ifs <;> rfl
    · rfl
  refine ⟨fun thru c => ?_, fun hzero thru c => ?_,
    fun rq' hmem => h.queue rq' (List.mem_of_mem_eraseIdx hmem), ?_⟩
  · rw [bytesOf_endRequest hsw htag, h.exact thru c, outstanding_erase hrq]
    exact Nat.add_sub_cancel_left _ _
  · have hbefore := h.fresh (hreset ▸ hzero) thru c
    rw [outstanding_erase hrq] at hbefore
    exact (Nat.add_eq_zero_iff.1 hbefore).2
  · have hlen := List.length_eraseIdx_le s.live i
    exact hlen.trans_lt h.room

end Steps

/-- In every run on CPUs that have a place and in which no bio with data merges into a counted
request, the counts are exact, and every request is on such a CPU; there a merge makes exact counts
wrong. -/
theorem steered_bytes_exact (p : Params) :
    (∀ es s, (blkSystem p).RunIn (fun s e => Placed p e ∧ InScope s e ∧ NoMerge s e) es s →
      BytesExact s ∧ ∀ rq ∈ s.live, rq.cpu < BLK_SWITCH_NR_CPUS) ∧
      ∀ s i task bio front s', (∀ rq ∈ s.live, rq.cpu < BLK_SWITCH_NR_CPUS) → BytesExact s →
        (blkSystem p).step s (.merge i task bio front) = some s' →
        ¬ NoMerge s (.merge i task bio front) → ¬ BytesExact s' := by
  constructor
  · intro es s hrun
    have hok : BlkOk s := by
      apply hrun.invariant (I := BlkOk)
      · constructor
        · intro thru cpu
          cases thru <;> rfl
        · intro _ thru cpu
          rfl
        · intro rq hmem
          cases hmem
        · exact Nat.two_pow_pos 32
      · intro s e s' hI hok hstep
        cases e with
        | makeRequest q task bio cpu m => exact hI.makeRequest (p := p) hok.1 hok.2.1 hstep
        | allocRequest q cpu tag => exact hI.allocRequest (p := p) hok.1 hok.2.1 hstep
        | merge i task bio front => exact hI.merge (p := p) hok.2.2 hstep
        | endRequest i => exact hI.endRequest (p := p) hstep
    exact ⟨(bytesOf_exact s).2 fun thru cpu _ => hok.exact thru cpu,
      fun rq hmem => (hok.queue rq hmem).2.2⟩
  · intro s i task bio front s' hlive hexact hstep hmerge hexact'
    obtain ⟨rq, b, hrq, hb, hprio, hlt, rfl⟩ := merge_cases (p := p) hstep
    rw [bytesOf_exact] at hexact hexact'
    -- the class and CPU of the request are counted as before, and there are more bytes out
    have hcpu := hlive rq (List.mem_of_getElem? hrq)
    have heq := (hexact' (blkSwitchIsThruRequest b) rq.cpu hcpu).symm.trans
      (hexact (blkSwitchIsThruRequest b) rq.cpu hcpu)
    simp only [NoMerge, not_or, hrq, Option.all_some, Bool.not_eq_true] at hmerge
    rw [outstanding_set hrq, share_merge hb hprio _ hlt, outstanding_erase hrq,
      if_pos ⟨rfl, hmerge.2, rfl⟩] at heq
    have hpos : bio.biSize.toNat ≠ 0 := fun h0 => hmerge.1 (UInt32.toNat_inj.1 h0)
    omega

def sampleParams : Params where
  blkSwitchOn := 1
  blkSwitchThreshB := 8
  blkSwitchNrCpus := 0
  numOnlineCpus := 4
  numOnlineNodes := 1
  hz := 250
  hz_pos := by decide

def sampleMeets (tag : ℕ) : Meets where
  jiffies := 1
  lone := true
  currentCpu := 2
  localActive := 0
  nrActive := fun _ => 0
  nrReq := fun _ => 0
  nrActiveTwo := fun _ => 0
  rand := fun _ => 0
  fuel := 0
  tag := some tag

def sampleMake (tag : ℕ) : BlkEvent :=
  .makeRequest ⟨true, fun _ _ => 0⟩ ⟨none⟩ ⟨1, 0, 4096⟩ 2 (sampleMeets tag)

theorem steered_bytes_exact_sample :
    ∃ s, (blkSystem sampleParams).RunIn
      (fun s e => Placed sampleParams e ∧ InScope s e ∧ NoMerge s e)
        [sampleMake 1, sampleMake 2, .endRequest 0] s ∧ s.switch.tBytes 2 = 4096 ∧
          BytesExact s := by
  obtain ⟨s, hrun, hbytes⟩ : ∃ s, (blkSystem sampleParams).RunIn
      (fun s e => Placed sampleParams e ∧ InScope s e ∧ NoMerge s e)
      [sampleMake 1, sampleMake 2, .endRequest 0] s ∧ s.switch.tBytes 2 = 4096 :=
    Runs.System.exists_runIn_of_execIn (fun s : BlkState => s.switch.tBytes 2 = 4096)
      (by decide +kernel)
  exact ⟨s, hrun, hbytes, ((steered_bytes_exact sampleParams).1 _ s hrun).1⟩

/-- A second write of 4 KiB merges into the first: 8 KiB are out and 4 KiB are counted. -/
theorem merged_bytes_not_counted :
    ∃ s, (blkSystem sampleParams).RunIn (fun s e => Placed sampleParams e ∧ InScope s e)
        [sampleMake 1, .merge 0 ⟨none⟩ ⟨1, 0, 4096⟩ false] s ∧ s.switch.tBytes 2 = 4096 ∧
      outstanding true 2 s.live = 8192 ∧ ¬ BytesExact s := by
  obtain ⟨s, hrun, hbytes, hout⟩ : ∃ s,
    (blkSystem sampleParams).RunIn (fun s e => Placed sampleParams e ∧ InScope s e)
      [sampleMake 1, .merge 0 ⟨none⟩ ⟨1, 0, 4096⟩ false] s ∧ s.switch.tBytes 2 = 4096 ∧
        outstanding true 2 s.live = 8192 :=
    Runs.System.exists_runIn_of_execIn
      (fun s : BlkState => s.switch.tBytes 2 = 4096 ∧ outstanding true 2 s.live = 8192)
        (by decide +kernel)
  refine ⟨s, hrun, hbytes, hout, fun hexact => ?_⟩
  have heq := (hexact 2 (by decide)).1
  rw [hbytes, hout] at heq
  exact absurd heq (by decide)

end BlkSwitch.Blk
