import BlkSwitch.Spec.QueueSetup
import Mathlib.Logic.Function.Basic

/-! Which caravan memory and which sockets live through set-ups and teardowns. A queue that cannot
be set up on the host leaves its caravan behind, or has a socket released that it never had; a queue
that is released on the target leaves its caravan behind. Everything else is in balance. -/

namespace BlkSwitch.Host

open Blocks

section Spec

/-- What a queue with `NVME_TCP_Q_ALLOCATED` has allocated for caravans. -/
def Owns (s : SetupState) (qid b : ℕ) : Prop :=
  (s.queues qid).allocated = true ∧
    ((s.queues qid).caravanIovs = some b ∨ (s.queues qid).caravanMapped = some b)

/-- The socket is one, and the one that the set-up has created. -/
def SockRelease.Own (r : SockRelease) : Prop := r.sock.isSome ∧ r.sock = r.created

/-- Live caravan memory is that of the allocated queues, and no foreign socket has been released. -/
def Balanced (s : SetupState) : Prop :=
  (∀ b, b ∈ s.arena.live ↔ ∃ qid, Owns s qid b) ∧ ∀ r ∈ s.releases, r.Own

/-- Every queue that a set-up comes to can be set up. What fails after that may fail. -/
def QueuesSetUp (s : SetupState) : SetupEvent → Prop
  | .setupCtrl o => o.adminQueue = none ∧
    (o.asyncReq = true → o.adminStart = true → o.icdoff = false → 1 < s.queueCount →
      ∀ n ∈ o.granted, ∀ i < n, o.ioQueues (1 + i) = none)
  | .teardown => True

instance (s : SetupState) : (e : SetupEvent) → Decidable (QueuesSetUp s e)
  | .setupCtrl _ => inferInstanceAs (Decidable (_ ∧ _))
  | .teardown => .isTrue trivial

end Spec

section Modes

variable {s s' s'' : SetupState}

structure Good (s : SetupState) : Prop where
  owned : s.arena.Owned (Owns s)
  releases : ∀ r ∈ s.releases, r.Own
  /-- so that the next release of it is good -/
  sock : ∀ qid, (s.queues qid).allocated = true →
    (s.queues qid).sock.isSome ∧ (s.queues qid).sock = (s.queues qid).created

def Broken (s : SetupState) : Prop := s.arena.Leaks (Owns s) ∨ ∃ r ∈ s.releases, ¬ r.Own

theorem Good.balanced (h : Good s) : Balanced s := ⟨h.owned.mem_iff, h.releases⟩

theorem Broken.not_balanced (h : Broken s) : ¬ Balanced s := by
  rintro ⟨hlive, hrel⟩
  rcases h with hleak | ⟨r, hr, hbad⟩
  · exact hleak.not_exact hlive
  · exact hbad (hrel r hr)

def Keeps (s s' : SetupState) : Prop := (Good s → Good s') ∧ (Broken s → Broken s')

def Breaks (s s' : SetupState) : Prop := Good s ∨ Broken s → Broken s'

theorem Keeps.refl (s : SetupState) : Keeps s s := ⟨id, id⟩

theorem Keeps.trans (h : Keeps s s') (h' : Keeps s' s'') : Keeps s s'' := ⟨h'.1 ∘ h.1, h'.2 ∘ h.2⟩

theorem Keeps.breaks (h : Keeps s s') (h' : Breaks s' s'') : Breaks s s'' :=
  fun hs => h' (hs.imp h.1 h.2)

theorem Breaks.keeps (h : Breaks s s') (h' : Keeps s' s'') : Breaks s s'' := fun hs => h'.2 (h hs)

end Modes

section Queue

variable {s : SetupState} {qid : ℕ}

theorem nvmeTcpFreeQueue_allocated (j : ℕ) :
    ((nvmeTcpFreeQueue qid s).queues j).allocated = ((s.queues j).allocated && j != qid) := by
  unfold nvmeTcpFreeQueue
  split_ifs with h
  · by_cases hj : j = qid
    · subst hj
      simp [SetupState.setQueue]
    · simp [SetupState.setQueue, sockRelease, hj]
  · by_cases hj : j = qid
    · subst hj
      simpa using h
    · simp [hj]

theorem nvmeTcpFreeQueue_keeps (qid : ℕ) (s : SetupState) : Keeps s (nvmeTcpFreeQueue qid s) := by
  by_cases halloc : (s.queues qid).allocated = true
  · have hown : ∀ j b, Owns (nvmeTcpFreeQueue qid s) j b ↔ Owns s j b ∧ j ≠ qid := by
      intro j b
      unfold Owns
      rw [nvmeTcpFreeQueue_allocated]
      by_cases hj : j = qid
      · simp [hj]
      · simp [nvmeTcpFreeQueue, halloc, SetupState.setQueue, sockRelease, hj]
    have hmem : ∀ b, b ∈ (nvmeTcpFreeQueue qid s).arena.live ↔ b ∈ s.arena.live ∧
        ¬ Owns s qid b := by
      intro b
      simp only [nvmeTcpFreeQueue, halloc, ↓reduceIte, Arena.mem_free, Owns, true_and, not_or,
        and_assoc]
      simp only [ne_eq, eq_comm]
    have hrel : (nvmeTcpFreeQueue qid s).releases =
        ⟨(s.queues qid).sock, (s.queues qid).created⟩ :: s.releases := by
      simp [nvmeTcpFreeQueue, halloc, sockRelease, SetupState.setQueue]
    refine ⟨fun hgood => ⟨hgood.owned.drop hmem hown, ?_, ?_⟩, ?_⟩
    · rw [hrel]
      exact List.forall_mem_cons.2 ⟨hgood.sock qid halloc, hgood.releases⟩
    · intro j hj
      rw [nvmeTcpFreeQueue_allocated, Bool.and_eq_true, bne_iff_ne] at hj
      have hsame : (nvmeTcpFreeQueue qid s).queues j = s.queues j := by
        simp [nvmeTcpFreeQueue, halloc, SetupState.setQueue, sockRelease, hj.2]
      rw [hsame]
      exact hgood.sock j hj.1
    · rintro (hleak | ⟨r, hr, hbad⟩)
      · exact .inl (hleak.drop (fun b hb hno => (hmem b).2 ⟨hb, hno⟩) fun j b
          h => ((hown j b).1 h).1)
      · exact .inr ⟨r, hrel ▸ List.mem_cons_of_mem _ hr, hbad⟩
  · unfold nvmeTcpFreeQueue
    rw [if_neg halloc]
    exact Keeps.refl s

def setUp (qid : ℕ) (s : SetupState) : SetupState :=
  { s.setQueue qid
      ⟨some s.arena.next, some (s.arena.next + 1), some s.nextSock, true, some s.nextSock⟩ with
    arena := s.arena.alloc.alloc
    nextSock := s.nextSock + 1 }

theorem nvmeTcpAllocQueue_none : nvmeTcpAllocQueue qid s none = (true, setUp qid s) := by
  simp [nvmeTcpAllocQueue, setUp, kcallocIovs, kcallocMapped, sockCreate, SetupState.setQueue]

theorem setUp_queues_ne {j : ℕ} (hj : j ≠ qid) : (setUp qid s).queues j = s.queues j := by
  simp [setUp, SetupState.setQueue, hj]

theorem setUp_queues_self : (setUp qid s).queues qid =
    ⟨some s.arena.next, some (s.arena.next + 1), some s.nextSock, true, some s.nextSock⟩ := by
  simp [setUp, SetupState.setQueue]

theorem setUp_allocated (j : ℕ) :
    ((setUp qid s).queues j).allocated = ((s.queues j).allocated || j == qid) := by
  by_cases hj : j = qid
  · rw [hj, setUp_queues_self]
    simp
  · rw [setUp_queues_ne hj]
    simp [hj]

theorem setUp_keeps (hq : (s.queues qid).allocated = false) : Keeps s (setUp qid s) := by
  have hgrows : s.arena.Grows (setUp qid s).arena :=
    (Arena.grows_alloc _).trans (Arena.grows_alloc _)
  have hnone : ∀ b, ¬ Owns s qid b := fun b h => by simp [h.1] at hq
  have hown : ∀ j b, Owns (setUp qid s) j b ↔
      Owns s j b ∨ j = qid ∧ s.arena.next ≤ b ∧ b < (setUp qid s).arena.next := by
    intro j b
    by_cases hj : j = qid
    · subst hj
      have hnext : (setUp j s).arena.next = s.arena.next + 2 := rfl
      rw [or_iff_right (hnone b)]
      simp only [true_and, Owns, setUp_queues_self, Option.some.injEq, hnext]
      omega
    · simp [Owns, setUp_queues_ne hj, hj]
  refine ⟨fun hgood => ⟨hgood.owned.take hgrows hnone hown, hgood.releases, ?_⟩, ?_⟩
  · intro j hj
    by_cases hjq : j = qid
    · rw [hjq, setUp_queues_self]
      exact ⟨rfl, rfl⟩
    · rw [setUp_queues_ne hjq] at hj ⊢
      exact hgood.sock j hj
  · rintro (hleak | hbad)
    · refine .inl (hleak.grow hgrows fun j b h => ?_)
      exact ((hown j b).1 h).imp_right fun h => h.2.1
    · exact .inr hbad

/-- What a set-up does to its queue before it is done. -/
structure Underway (qid : ℕ) (s s' : SetupState) : Prop where
  allocated : ∀ j, (s'.queues j).allocated = (s.queues j).allocated
  other : ∀ j, j ≠ qid → s'.queues j = s.queues j
  queueCount : s'.queueCount = s.queueCount
  grows : s.arena.Grows s'.arena
  releases : ∀ r ∈ s.releases, r ∈ s'.releases

theorem Underway.trans {s' s'' : SetupState} (h : Underway qid s s') (h' : Underway qid s' s'') :
    Underway qid s s'' where
  allocated := fun j => (h'.allocated j).trans (h.allocated j)
  other := fun j hj => (h'.other j hj).trans (h.other j hj)
  queueCount := h'.queueCount.trans h.queueCount
  grows := h.grows.trans h'.grows
  releases := fun r hr => h'.releases r (h.releases r hr)

theorem underway_of_update {s' : SetupState} {q : SetupQueue}
    (hqueues : s'.queues = Function.update s.queues qid q)
    (hq : q.allocated = (s.queues qid).allocated) (hcount : s'.queueCount = s.queueCount)
    (hgrows : s.arena.Grows s'.arena) (hrel : ∀ r ∈ s.releases, r ∈ s'.releases) :
    Underway qid s s' where
  allocated := by
    intro j
    rw [hqueues]
    by_cases hj : j = qid
    · subst hj
      simpa using hq
    · simp [hj]
  other := by
    intro j hj
    rw [hqueues, Function.update_of_ne hj]
  queueCount := hcount
  grows := hgrows
  releases := hrel

theorem setQueue_underway {q : SetupQueue} (hq : q.allocated = (s.queues qid).allocated) :
    Underway qid s (s.setQueue qid q) :=
  underway_of_update rfl hq rfl (.refl _) fun _ hr => hr

theorem errSock_underway : Underway qid s (errSock qid s) :=
  underway_of_update rfl rfl rfl (.refl _) fun _ => List.mem_cons_of_mem _

theorem kcallocIovs_underway : Underway qid s (kcallocIovs qid s) :=
  underway_of_update rfl rfl rfl (Arena.grows_alloc _) fun _ hr => hr

theorem kcallocMapped_underway : Underway qid s (kcallocMapped qid s) :=
  underway_of_update rfl rfl rfl (Arena.grows_alloc _) fun _ hr => hr

theorem sockCreate_underway : Underway qid s (sockCreate qid s) :=
  underway_of_update rfl rfl rfl (.refl _) fun _ hr => hr

/-- Every failure leaves memory behind, or releases what the set-up has not created. -/
theorem nvmeTcpAllocQueue_some (f : SetupStep) : (nvmeTcpAllocQueue qid s (some f)).1 = false ∧
    Underway qid s (nvmeTcpAllocQueue qid s (some f)).2 ∧
    (s.arena.next < (nvmeTcpAllocQueue qid s (some f)).2.arena.next ∨
      ∃ r ∈ (nvmeTcpAllocQueue qid s (some f)).2.releases, ¬ r.Own) := by
  have h0 : Underway qid s (s.setQueue qid { s.queues qid with created := none }) :=
    setQueue_underway rfl
  unfold nvmeTcpAllocQueue
  dsimp only
  split_ifs with hiovs hmapped hsock hlater
  · refine ⟨rfl, h0.trans (Underway.trans ?_ errSock_underway), .inr ⟨_, List.mem_cons_self, ?_⟩⟩
    · exact setQueue_underway rfl
    · rintro ⟨hsome, hcreated⟩
      simp only [SetupState.setQueue, Function.update_self] at hsome hcreated
      simp [hcreated] at hsome
  · refine ⟨rfl, (h0.trans kcallocIovs_underway).trans (Underway.trans ?_ errSock_underway),
      .inl (Nat.lt_succ_self _)⟩
    exact setQueue_underway rfl
  · exact ⟨rfl, (h0.trans kcallocIovs_underway).trans kcallocMapped_underway,
      .inl (Nat.lt_add_of_pos_right two_pos)⟩
  · exact ⟨rfl, (((h0.trans kcallocIovs_underway).trans kcallocMapped_underway).trans
      sockCreate_underway).trans
      errSock_underway, .inl (Nat.lt_add_of_pos_right two_pos)⟩
  · simp at hlater

theorem nvmeTcpAllocQueue_breaks (hq : (s.queues qid).allocated = false) (f : SetupStep) :
    Breaks s (nvmeTcpAllocQueue qid s (some f)).2 := by
  obtain ⟨-, hway, hfault⟩ := @nvmeTcpAllocQueue_some s qid f
  have hown : ∀ j b, Owns (nvmeTcpAllocQueue qid s (some f)).2 j b → Owns s j b := by
    rintro j b ⟨halloc, hb⟩
    rw [hway.allocated] at halloc
    have hj : j ≠ qid := fun heq => by simp [heq, hq] at halloc
    rw [hway.other j hj] at hb
    exact ⟨halloc, hb⟩
  rintro (hgood | hleak | ⟨r, hr, hbad⟩)
  · exact hfault.imp_left fun hlt => hgood.owned.leaks hway.grows hlt hown
  · exact .inl (hleak.grow hway.grows fun j b h => .inl (hown j b h))
  · exact .inr ⟨r, hway.releases r hr, hbad⟩

end Queue

section Loops

variable {s : SetupState}

theorem freeQueues_keeps (qids : List ℕ) (s : SetupState) : Keeps s (freeQueues qids s) := by
  induction qids generalizing s with
  | nil => exact Keeps.refl s
  | cons qid qids ih => exact (nvmeTcpFreeQueue_keeps qid s).trans (ih _)

theorem freeQueues_allocated {qids : List ℕ} {j : ℕ}
    (h : ((freeQueues qids s).queues j).allocated = true) :
    (s.queues j).allocated = true ∧ j ∉ qids := by
  induction qids generalizing s with
  | nil => exact ⟨h, List.not_mem_nil⟩
  | cons qid qids ih =>
    obtain ⟨halloc, hmem⟩ := ih h
    rw [nvmeTcpFreeQueue_allocated, Bool.and_eq_true, bne_iff_ne] at halloc
    exact ⟨halloc.1, List.not_mem_cons_of_ne_of_not_mem halloc.2 hmem⟩

def Below (i : ℕ) (s : SetupState) : Prop := ∀ j, (s.queues j).allocated = true → j < i

theorem Below.not_allocated {i : ℕ} (h : Below i s) : (s.queues i).allocated = false := by
  rw [← Bool.not_eq_true]
  exact fun halloc => lt_irrefl i (h i halloc)

theorem Below.setUp {i : ℕ} (h : Below i s) : Below (i + 1) (setUp i s) := by
  intro j hj
  rw [setUp_allocated, Bool.or_eq_true, beq_iff_eq] at hj
  rcases hj with hj | rfl
  · exact (h j hj).trans (Nat.lt_succ_self _)
  · exact Nat.lt_succ_self _

theorem allocIoQueues_all {fails : ℕ → Option SetupStep} {n i : ℕ}
    (hfails : ∀ k < n, fails (i + k) = none) (hbelow : Below i s) :
    (allocIoQueues fails n i s).1 = true ∧ Keeps s (allocIoQueues fails n i s).2 ∧
      Below (i + n) (allocIoQueues fails n i s).2 ∧
      (allocIoQueues fails n i s).2.queueCount = s.queueCount := by
  induction n generalizing i s with
  | zero => exact ⟨rfl, Keeps.refl s, hbelow, rfl⟩
  | succ n ih =>
    have hfirst : fails i = none := hfails 0 (Nat.succ_pos n)
    have hrest : ∀ k < n, fails (i + 1 + k) = none := by
      intro k hk
      rw [Nat.add_assoc, Nat.add_comm 1 k]
      exact hfails (k + 1) (Nat.succ_lt_succ hk)
    obtain ⟨hret, hkeeps, hwithin, hcount⟩ := ih hrest hbelow.setUp
    rw [Nat.add_assoc, Nat.add_comm 1 n] at hwithin
    simp only [allocIoQueues, hfirst, nvmeTcpAllocQueue_none, ↓reduceIte]
    exact ⟨hret, (setUp_keeps hbelow.not_allocated).trans hkeeps, hwithin, hcount⟩

/-- The first that cannot ends the loop, and the I/O queues before it are freed. -/
theorem allocIoQueues_not_all {fails : ℕ → Option SetupStep} {n i : ℕ}
    (hfails : ¬ ∀ k < n, fails (i + k) = none) (hi : 1 ≤ i) (hbelow : Below i s) :
    (allocIoQueues fails n i s).1 = false ∧
      Breaks s (allocIoQueues fails n i s).2 ∧ Below 1 (allocIoQueues fails n i s).2 := by
  induction n generalizing i s with
  | zero => exact absurd (fun k hk => absurd hk (Nat.not_lt_zero k)) hfails
  | succ n ih =>
    cases hfirst : fails i with
    | none =>
      have hrest : ¬ ∀ k < n, fails (i + 1 + k) = none := by
        intro hall
        refine hfails fun k hk => ?_
        cases k with
        | zero => exact hfirst
        | succ k =>
          rw [Nat.add_comm k 1, ← Nat.add_assoc]
          exact hall k (Nat.lt_of_succ_lt_succ hk)
      obtain ⟨hret, hbreaks, hadmin⟩ := ih hrest (Nat.le_succ_of_le hi) hbelow.setUp
      simp only [allocIoQueues, hfirst, nvmeTcpAllocQueue_none, ↓reduceIte]
      exact ⟨hret, (setUp_keeps hbelow.not_allocated).breaks hbreaks, hadmin⟩
    | some f =>
      obtain ⟨hret, hway, -⟩ := @nvmeTcpAllocQueue_some s i f
      simp only [allocIoQueues, hfirst, hret, Bool.false_eq_true, ↓reduceIte]
      refine ⟨trivial, (nvmeTcpAllocQueue_breaks hbelow.not_allocated f).keeps
        (freeQueues_keeps _ _), ?_⟩
      intro j hj
      obtain ⟨halloc, hmem⟩ := freeQueues_allocated hj
      rw [hway.allocated] at halloc
      have hlt := hbelow j halloc
      rw [List.mem_reverse, List.mem_range'_1] at hmem
      omega

theorem nvmeTcpFreeIoQueues_below (h : Below s.queueCount s) : Below 1 (nvmeTcpFreeIoQueues s) := by
  intro j hj
  obtain ⟨halloc, hmem⟩ := freeQueues_allocated hj
  have hlt := h j halloc
  rw [List.mem_range'_1] at hmem
  omega

theorem nvmeTcpFreeQueue_below (h : Below 1 s) : Below 0 (nvmeTcpFreeQueue 0 s) := by
  intro j hj
  rw [nvmeTcpFreeQueue_allocated, Bool.and_eq_true, bne_iff_ne] at hj
  have hlt := h j hj.1
  omega

end Loops

section Ctrl

variable {o : SetupOutcome} {s : SetupState}

theorem keeps_of_eq {s' : SetupState} (hqueues : s'.queues = s.queues) (harena : s'.arena = s.arena)
    (hrel : s'.releases = s.releases) : Keeps s s' := by
  have hown : Owns s' = Owns s := by
    unfold Owns
    rw [hqueues]
  refine ⟨fun h => ⟨?_, ?_, ?_⟩, fun h => ?_⟩
  · rw [harena, hown]
    exact h.owned
  · rw [hrel]
    exact h.releases
  · rw [hqueues]
    exact h.sock
  · unfold Broken
    rw [harena, hown, hrel]
    exact h

/-- A part of the set-up that starts from `s` and gives `r`: it keeps the balance if it comes to no
queue that cannot be set up and breaks it otherwise, and leaves no queue from `lo` on if it
fails. -/
structure Part (fits : Prop) (lo : ℕ) (s : SetupState) (r : Bool × SetupState) : Prop where
  keeps : fits → Keeps s r.2
  breaks : ¬ fits → Breaks s r.2
  failed : r.1 = false → Below lo r.2
  within : Below (max 1 r.2.queueCount) r.2

theorem Below.mono {i j : ℕ} (h : Below i s) (hij : i ≤ j) : Below j s :=
  fun k hk => (h k hk).trans_le hij

theorem configureAdminQueue_none (hadmin : o.adminQueue = none) : configureAdminQueue o s =
    if o.asyncReq = true ∧ o.adminStart = true then (true, setUp 0 s)
    else (false, nvmeTcpFreeQueue 0 (setUp 0 s)) := by
  unfold configureAdminQueue allocAdminQueue
  rw [hadmin, nvmeTcpAllocQueue_none]
  cases o.asyncReq <;> cases o.adminStart <;> rfl

theorem configureAdminQueue_some {f : SetupStep} (hadmin : o.adminQueue = some f) :
    configureAdminQueue o s = (false, (nvmeTcpAllocQueue 0 s (some f)).2) := by
  have hret := (@nvmeTcpAllocQueue_some s 0 f).1
  unfold configureAdminQueue allocAdminQueue
  simp only [hadmin, hret, Bool.false_eq_true, ↓reduceIte]
  exact Prod.ext hret rfl

theorem configureIoQueues_part (h : Below 1 s) :
    Part (∀ n ∈ o.granted, ∀ i < n, o.ioQueues (1 + i) = none) 1 s (configureIoQueues o s) := by
  unfold configureIoQueues
  cases hgranted : o.granted with
  | none =>
    exact ⟨fun _ => Keeps.refl s, fun hno => absurd (by simp) hno, fun _ => h,
      h.mono (le_max_left _ _)⟩
  | some n =>
    have hcount : Keeps s { s with queueCount := n + 1 } := keeps_of_eq rfl rfl rfl
    have hbelow : Below 1 { s with queueCount := n + 1 } := h
    by_cases hall : ∀ i < n, o.ioQueues (1 + i) = none
    · obtain ⟨hret, hkeeps, hwithin, hqc⟩ := allocIoQueues_all hall hbelow
      rw [Nat.add_comm 1 n] at hwithin
      have hqueues : Below
        (allocIoQueues o.ioQueues n 1 { s with queueCount := n + 1 }).2.queueCount
          (allocIoQueues o.ioQueues n 1 { s with queueCount := n + 1 }).2 := by
        rw [hqc]
        exact hwithin
      dsimp only
      rw [hret, if_pos rfl]
      split_ifs
      · exact ⟨fun _ => hcount.trans hkeeps, fun hno => absurd (by simpa using hall) hno,
          fun hfalse => absurd (hret.symm.trans hfalse) (by simp), hqueues.mono (le_max_right _ _)⟩
      · have hfreed := nvmeTcpFreeIoQueues_below hqueues
        exact ⟨fun _ => (hcount.trans hkeeps).trans (freeQueues_keeps _ _),
          fun hno => absurd (by simpa using hall) hno, fun _ => hfreed,
          hfreed.mono (le_max_left _ _)⟩
    · obtain ⟨hret, hbreaks, hadmin⟩ := allocIoQueues_not_all hall le_rfl hbelow
      dsimp only
      rw [hret, if_neg (by simp)]
      exact ⟨fun hyes => absurd (hyes n rfl) hall, fun _ => hcount.breaks hbreaks, fun _ => hadmin,
        hadmin.mono (le_max_left _ _)⟩

def setupRest (o : SetupOutcome) (s : SetupState) : Bool × SetupState :=
  let r := if 1 < s.queueCount then configureIoQueues o s else (true, s)
  if r.1 then
    if o.live then r
    else (false, nvmeTcpFreeQueue 0 (if 1 < r.2.queueCount then nvmeTcpFreeIoQueues r.2 else r.2))
  else (false, nvmeTcpFreeQueue 0 r.2)

theorem freeCtrl_below (h : Below (max 1 s.queueCount) s) :
    Below 0 (nvmeTcpFreeQueue 0 (if 1 < s.queueCount then nvmeTcpFreeIoQueues s else s)) := by
  refine nvmeTcpFreeQueue_below ?_
  split_ifs with hcount
  · rw [max_eq_right hcount.le] at h
    exact nvmeTcpFreeIoQueues_below h
  · rwa [max_eq_left (not_lt.1 hcount)] at h

theorem freeCtrl_keeps (s : SetupState) :
    Keeps s (nvmeTcpFreeQueue 0 (if 1 < s.queueCount then nvmeTcpFreeIoQueues s else s)) := by
  refine Keeps.trans ?_ (nvmeTcpFreeQueue_keeps 0 _)
  split_ifs
  · exact freeQueues_keeps _ _
  · exact Keeps.refl s

theorem setupRest_part (h : Below 1 s) :
    Part (1 < s.queueCount → ∀ n ∈ o.granted, ∀ i < n, o.ioQueues (1 + i) = none) 0 s
      (setupRest o s) := by
  have hio : Part (1 < s.queueCount → ∀ n ∈ o.granted, ∀ i < n, o.ioQueues (1 + i) = none) 1 s
      (if 1 < s.queueCount then configureIoQueues o s else (true, s)) := by
    split_ifs with hcount
    · have hpart := @configureIoQueues_part o s h
      exact ⟨fun hyes => hpart.keeps (hyes hcount),
        fun hno => hpart.breaks fun hyes => hno fun _ => hyes, hpart.failed, hpart.within⟩
    · exact ⟨fun _ => Keeps.refl s, fun hno => absurd (fun hlt => absurd hlt hcount) hno,
        fun hfalse => absurd hfalse (by simp), h.mono (le_max_left _ _)⟩
  unfold setupRest
  dsimp only
  generalize (if 1 < s.queueCount then configureIoQueues o s else (true, s)) = r at hio ⊢
  by_cases hret : r.1 = true
  · rw [if_pos hret]
    by_cases hlive : o.live = true
    · rw [if_pos hlive]
      exact ⟨hio.keeps, hio.breaks, fun hfalse => absurd (hret.symm.trans hfalse) (by simp),
        hio.within⟩
    · rw [if_neg hlive]
      have hdown := freeCtrl_below hio.within
      exact ⟨fun hyes => (hio.keeps hyes).trans (freeCtrl_keeps _),
        fun hno => (hio.breaks hno).keeps (freeCtrl_keeps _), fun _ => hdown,
        hdown.mono (Nat.zero_le _)⟩
  · rw [if_neg hret]
    have hdown := nvmeTcpFreeQueue_below (hio.failed (by simpa using hret))
    exact ⟨fun hyes => (hio.keeps hyes).trans (nvmeTcpFreeQueue_keeps 0 _),
      fun hno => (hio.breaks hno).keeps (nvmeTcpFreeQueue_keeps 0 _), fun _ => hdown,
      hdown.mono (Nat.zero_le _)⟩

theorem nvmeTcpSetupCtrl_part (h : Below 0 s) :
    Part (QueuesSetUp s (.setupCtrl o)) 0 s (nvmeTcpSetupCtrl o s) := by
  unfold nvmeTcpSetupCtrl
  cases hadmin : o.adminQueue with
  | some f =>
    have hbelow : Below 0 (nvmeTcpAllocQueue 0 s (some f)).2 := by
      intro j hj
      rw [(@nvmeTcpAllocQueue_some s 0 f).2.1.allocated] at hj
      exact h j hj
    rw [configureAdminQueue_some hadmin]
    exact ⟨fun hyes => absurd (hadmin.symm.trans hyes.1) (by simp),
      fun _ => nvmeTcpAllocQueue_breaks h.not_allocated f, fun _ => hbelow,
      hbelow.mono (Nat.zero_le _)⟩
  | none =>
    have hkeeps : Keeps s (setUp 0 s) := setUp_keeps h.not_allocated
    have hdown : Below 0 (nvmeTcpFreeQueue 0 (setUp 0 s)) := nvmeTcpFreeQueue_below h.setUp
    have hfreed : Keeps s (nvmeTcpFreeQueue 0 (setUp 0 s)) :=
      hkeeps.trans (nvmeTcpFreeQueue_keeps 0 _)
    rw [configureAdminQueue_none hadmin]
    by_cases hstart : o.asyncReq = true ∧ o.adminStart = true
    · rw [if_pos hstart]
      cases hicd : o.icdoff with
      | true =>
        have hfits : QueuesSetUp s (.setupCtrl o) :=
          And.intro hadmin fun _ _ hfalse => absurd (hicd.symm.trans hfalse) (by simp)
        exact ⟨fun _ => hfreed, fun hno => absurd hfits hno, fun hfalse => absurd hfalse (by simp),
          hdown.mono (Nat.zero_le _)⟩
      | false =>
        have hrest := @setupRest_part o (setUp 0 s) h.setUp
        exact ⟨fun hyes => hkeeps.trans (hrest.keeps (hyes.2 hstart.1 hstart.2 hicd)),
          fun hno => hkeeps.breaks
          (hrest.breaks fun hyes => hno (And.intro hadmin fun _ _ _ => hyes)),
          hrest.failed, hrest.within⟩
    · rw [if_neg hstart]
      have hfits : QueuesSetUp s (.setupCtrl o) :=
        And.intro hadmin fun h1 h2 => absurd ⟨h1, h2⟩ hstart
      exact ⟨fun _ => hfreed, fun hno => absurd hfits hno, fun _ => hdown,
        hdown.mono (Nat.zero_le _)⟩

end Ctrl

section Runs

variable {s s' : SetupState}

/-- Which queues a controller has, whether it is up or down. -/
structure Shape (s : SetupState) : Prop where
  down : s.up = false → Below 0 s
  within : Below (max 1 s.queueCount) s

theorem setupStep_cases {e : SetupEvent} (h : Shape s) (hstep : setupStep s e = some s') :
    (QueuesSetUp s e → Keeps s s') ∧ (¬ QueuesSetUp s e → Breaks s s') ∧ Shape s' := by
  cases e with
  | setupCtrl o =>
    simp only [setupStep] at hstep
    split_ifs at hstep with hup
    obtain rfl := Option.some.inj hstep
    have hpart := @nvmeTcpSetupCtrl_part o s (h.down (by simpa using hup))
    have hsame : Keeps (nvmeTcpSetupCtrl o s).2
        { (nvmeTcpSetupCtrl o s).2 with up := (nvmeTcpSetupCtrl o s).1 } := keeps_of_eq rfl rfl rfl
    exact ⟨fun hyes => (hpart.keeps hyes).trans hsame, fun hno => (hpart.breaks hno).keeps hsame,
      hpart.failed, hpart.within⟩
  | teardown =>
    obtain rfl := Option.some.inj hstep
    have hsame : (if s.queueCount ≤ 1 then s else nvmeTcpFreeIoQueues s) =
        if 1 < s.queueCount then nvmeTcpFreeIoQueues s else s := by
      split_ifs <;> first | rfl | omega
    have hdown : Below 0 (nvmeTcpTeardownCtrl s) := by
      unfold nvmeTcpTeardownCtrl
      rw [hsame]
      exact freeCtrl_below h.within
    have hkeeps : Keeps s (nvmeTcpTeardownCtrl s) := by
      unfold nvmeTcpTeardownCtrl
      rw [hsame]
      exact freeCtrl_keeps s
    exact ⟨fun _ => hkeeps.trans (keeps_of_eq rfl rfl rfl), fun hno => absurd trivial hno,
      fun _ => hdown, hdown.mono (Nat.zero_le _)⟩

/-- A controller is in balance exactly as long as no queue has failed to be set up. -/
theorem setupSystem_balanced {queueCount : ℕ} {tr : List SetupEvent}
    (h : (setupSystem queueCount).Run tr s) :
    Balanced s ↔ (setupSystem queueCount).RunIn QueuesSetUp tr s := by
  refine Runs.System.RunIn.good_iff (G := fun s => Shape s ∧ Good s)
    (B := fun s => Shape s ∧ Broken s) ?_
    (fun s hs => hs.2.balanced) (fun s hs => hs.2.not_balanced) ?_ ?_ ?_ h
  · have hnone : ∀ qid b, ¬ Owns (setupSystem queueCount).init qid b :=
      fun qid b h => Bool.false_ne_true h.1
    refine ⟨⟨fun _ j hj => absurd hj Bool.false_ne_true, fun j hj => absurd hj Bool.false_ne_true⟩,
      ⟨?_, ?_⟩, ?_, ?_⟩
    · exact fun b => iff_of_false List.not_mem_nil fun ⟨qid, hqid⟩ => hnone qid b hqid
    · exact fun i _ b hi => absurd hi (hnone i b)
    · exact fun r hr => absurd hr List.not_mem_nil
    · exact fun qid hqid => absurd hqid Bool.false_ne_true
  · rintro s e s' ⟨hshape, hgood⟩ hok hstep
    obtain ⟨hkeep, -, hshape'⟩ := setupStep_cases hshape hstep
    exact ⟨hshape', (hkeep hok).1 hgood⟩
  · rintro s e s' ⟨hshape, hgood⟩ hno hstep
    obtain ⟨-, hbreak, hshape'⟩ := setupStep_cases hshape hstep
    exact ⟨hshape', hbreak hno (.inl hgood)⟩
  · rintro s e s' ⟨hshape, hbroken⟩ hstep
    obtain ⟨hkeep, hbreak, hshape'⟩ := setupStep_cases hshape hstep
    by_cases hok : QueuesSetUp s e
    · exact ⟨hshape', (hkeep hok).2 hbroken⟩
    · exact ⟨hshape', hbreak hok (.inr hbroken)⟩

end Runs

end BlkSwitch.Host

namespace BlkSwitch.Target

open Blocks

section Spec

/-- What an unreleased queue has allocated for caravans. -/
def Owns (s : SetupState) (q : SetupQueue) (b : ℕ) : Prop :=
  q ∈ s.queues ∧ (b = q.caravanIovs ∨ b = q.caravanCmds ∨ b = q.caravanMapped)

/-- Live caravan memory is that of the queues not yet released. -/
def Balanced (s : SetupState) : Prop := ∀ b, b ∈ s.arena.live ↔ ∃ q, Owns s q b

def NoneReleased (_ : SetupState) : SetupEvent → Prop
  | .allocQueue _ => True
  | .releaseQueue _ => False

instance (s : SetupState) : (e : SetupEvent) → Decidable (NoneReleased s e)
  | .allocQueue _ => .isTrue trivial
  | .releaseQueue _ => .isFalse id

end Spec

variable {s s' : SetupState}

structure Good (s : SetupState) : Prop where
  owned : s.arena.Owned (Owns s)
  nodup : s.queues.Nodup

theorem allocQueueCaravan_some (f : SetupStep) (s : SetupState) :
    (allocQueueCaravan (some f) s).queues = s.queues ∧
      ∀ b, b ∈ (allocQueueCaravan (some f) s).arena.live ↔ b ∈ s.arena.live := by
  have hfresh : ∀ b ∈ s.arena.live, b < s.arena.next := s.arena.fresh
  unfold allocQueueCaravan
  dsimp only
  split_ifs with h1 h2 h3 h4
  · exact ⟨rfl, fun b => Iff.rfl⟩
  · refine ⟨rfl, fun b => ?_⟩
    have := hfresh b
    simp
    grind
  · refine ⟨rfl, fun b => ?_⟩
    have := hfresh b
    simp
    grind
  · refine ⟨rfl, fun b => ?_⟩
    have := hfresh b
    simp
    grind
  · simp at h4

theorem Good.alloc (h : Good s) (fails : Option SetupStep) : Good (allocQueueCaravan fails s) := by
  cases fails with
  | some f =>
    obtain ⟨hqueues, hlive⟩ := allocQueueCaravan_some f s
    have hown : Owns (allocQueueCaravan (some f) s) = Owns s := by
      unfold Owns
      rw [hqueues]
    refine ⟨⟨fun b => ?_, ?_⟩, hqueues ▸ h.nodup⟩
    · rw [hlive, hown]
      exact h.owned.mem_iff b
    · rw [hown]
      exact h.owned.unique
  | none =>
    let q : SetupQueue := ⟨s.arena.next, s.arena.next + 1, s.arena.next + 2⟩
    have hnone : ∀ b, ¬ Owns s q b := by
      rintro b ⟨hq, hb⟩
      -- an owner's first block is live, and the new one is not yet
      exact lt_irrefl _ (h.owned.lt (⟨hq, .inl rfl⟩ : Owns s q s.arena.next))
    have hgrows : s.arena.Grows (allocQueueCaravan none s).arena :=
      ((Arena.grows_alloc _).trans (Arena.grows_alloc _)).trans (Arena.grows_alloc _)
    have hown : ∀ p b, Owns (allocQueueCaravan none s) p b ↔
        Owns s p b ∨ p = q ∧ s.arena.next ≤ b ∧ b < (allocQueueCaravan none s).arena.next := by
      intro p b
      have hqueues : (allocQueueCaravan none s).queues = s.queues ++ [q] := rfl
      have hnext : (allocQueueCaravan none s).arena.next = s.arena.next + 3 := rfl
      rw [Owns, hqueues, hnext, List.mem_append, List.mem_singleton, or_and_right, Owns]
      refine or_congr_right (and_congr_right ?_)
      rintro rfl
      dsimp only [q]
      omega
    have hnew : q ∉ s.queues := fun hq => hnone _ ⟨hq, .inl rfl⟩
    exact ⟨h.owned.take hgrows hnone hown,
      h.nodup.append (List.nodup_singleton q) (by simpa using hnew)⟩

theorem Good.release (h : Good s) {j : ℕ} (hj : j < s.queues.length) :
    s.arena.Leaks (Owns { s with queues := s.queues.eraseIdx j }) := by
  refine ⟨s.queues[j].caravanIovs,
    (h.owned.mem_iff _).2 ⟨s.queues[j], List.getElem_mem hj, .inl rfl⟩, ?_⟩
  rintro q ⟨hq, hb⟩
  obtain ⟨i, hi, hne, rfl⟩ := List.mem_eraseIdx_iff_getElem.1 hq
  have heq := h.owned.unique s.queues[i] s.queues[j] _ ⟨List.getElem_mem hi, hb⟩
    ⟨List.getElem_mem hj, .inl rfl⟩
  exact hne ((h.nodup.getElem_inj_iff).1 heq)

theorem Leaks.alloc (h : s.arena.Leaks (Owns s)) (fails : Option SetupStep) :
    (allocQueueCaravan fails s).arena.Leaks (Owns (allocQueueCaravan fails s)) := by
  cases fails with
  | some f =>
    obtain ⟨hqueues, hlive⟩ := allocQueueCaravan_some f s
    obtain ⟨b, hb, hnone⟩ := h
    refine ⟨b, (hlive b).2 hb, fun q hq => hnone q ?_⟩
    rwa [Owns, hqueues] at hq
  | none =>
    refine Arena.Leaks.grow h
      (((Arena.grows_alloc _).trans (Arena.grows_alloc _)).trans (Arena.grows_alloc _)) ?_
    rintro q b ⟨hq, hb⟩
    rcases List.mem_append.1 hq with hq | hq
    · exact .inl ⟨hq, hb⟩
    · obtain rfl := List.mem_singleton.1 hq
      dsimp only [Arena.next_alloc] at hb
      exact .inr (by omega)

theorem setupSystem_balanced {tr : List SetupEvent} (h : setupSystem.Run tr s) :
    Balanced s ↔ setupSystem.RunIn NoneReleased tr s := by
  refine Runs.System.RunIn.good_iff (G := Good) (B := fun s => s.arena.Leaks (Owns s)) ?_
    (fun s hs => hs.owned.mem_iff) (fun s hs => hs.not_exact) ?_ ?_ ?_ h
  · refine ⟨⟨fun b => ?_, fun q _ b hq => absurd hq.1 List.not_mem_nil⟩, List.nodup_nil⟩
    exact iff_of_false List.not_mem_nil fun ⟨q, hq⟩ => absurd hq.1 List.not_mem_nil
  · intro s e s' hgood hok hstep
    cases e with
    | allocQueue fails =>
      obtain rfl := Option.some.inj hstep
      exact hgood.alloc fails
    | releaseQueue j => exact hok.elim
  · intro s e s' hgood hno hstep
    cases e with
    | allocQueue fails => exact absurd trivial hno
    | releaseQueue j =>
      obtain ⟨hj, hsome⟩ := Option.ite_none_right_eq_some.1 hstep
      obtain rfl := Option.some.inj hsome
      exact hgood.release hj
  · intro s e s' hbad hstep
    cases e with
    | allocQueue fails =>
      obtain rfl := Option.some.inj hstep
      exact Leaks.alloc hbad fails
    | releaseQueue j =>
      obtain ⟨hj, hsome⟩ := Option.ite_none_right_eq_some.1 hstep
      obtain rfl := Option.some.inj hsome
      obtain ⟨b, hb, hnone⟩ := hbad
      exact ⟨b, hb, fun q hq => hnone q ⟨List.mem_of_mem_eraseIdx hq.1, hq.2⟩⟩

end BlkSwitch.Target

namespace BlkSwitch

/-- Set-ups and teardowns are in balance exactly in the runs in which no host queue fails to be set
up, and in those in which no target queue is released. -/
theorem queue_setup_balanced (queueCount : ℕ) :
    (∀ tr s, (Host.setupSystem queueCount).Run tr s →
      (Host.Balanced s ↔ (Host.setupSystem queueCount).RunIn Host.QueuesSetUp tr s)) ∧
    ∀ tr s, Target.setupSystem.Run tr s →
      (Target.Balanced s ↔ Target.setupSystem.RunIn Target.NoneReleased tr s) :=
  ⟨fun _ _ h => Host.setupSystem_balanced h, fun _ _ h => Target.setupSystem_balanced h⟩

section Samples

def goodSetup : Host.SetupOutcome where
  adminQueue := none
  asyncReq := true
  adminStart := true
  icdoff := false
  granted := some 2
  ioQueues := fun _ => none
  ioStart := true
  live := true

/-- A reconnect whose I/O queues are set up and cannot be started, and another that succeeds. -/
def reconnects : List Host.SetupEvent :=
  [.setupCtrl goodSetup, .teardown, .setupCtrl { goodSetup with ioStart := false },
    .setupCtrl goodSetup]

theorem queue_setup_balanced_reconnects :
    (∃ s, (Host.setupSystem 3).Run reconnects s ∧ s.arena.live.length = 6 ∧ s.releases.length = 6 ∧
      Host.Balanced s) ∧ ∃ s, Target.setupSystem.Run [.allocQueue none, .allocQueue (some .ida)] s ∧
      s.arena.live = [2, 1, 0] ∧
        Target.Balanced s := by
  refine ⟨?_, ?_⟩
  · obtain ⟨s, hs, hlive, hrel⟩ :=
      @Runs.System.exists_runIn_of_execIn _ _ (Host.setupSystem 3) Host.QueuesSetUp _
      (fun s => s.arena.live.length = 6 ∧ s.releases.length = 6) _ reconnects (by decide +kernel)
    have hrun := hs.mono fun _ _ _ => trivial
    exact ⟨s, hrun, hlive, hrel, ((queue_setup_balanced 3).1 _ s hrun).2 hs⟩
  · obtain ⟨s, hs, hlive⟩ :=
      @Runs.System.exists_runIn_of_execIn _ _ Target.setupSystem Target.NoneReleased _
      (fun s => s.arena.live = [2, 1, 0]) _ [.allocQueue none, .allocQueue (some .ida)]
        (by decide +kernel)
    have hrun := hs.mono fun _ _ _ => trivial
    exact ⟨s, hrun, hlive, ((queue_setup_balanced 3).2 _ s hrun).2 hs⟩

/-- The target does not answer: the caravan of the admin queue stays behind. No memory for it: the
socket of the connection before is released again. The host goes away: the caravan of the target's
queue stays. -/
theorem queue_setup_unbalanced :
    (∃ s, (Host.setupSystem 3).Run [.setupCtrl { goodSetup with adminQueue := some .connect }] s ∧
      s.arena.live = [1, 0] ∧ (s.queues 0).allocated = false ∧ ¬ Host.Balanced s) ∧
    (∃ s, (Host.setupSystem 1).Run [.setupCtrl goodSetup, .teardown,
        .setupCtrl { goodSetup with adminQueue := some .caravanIovs }] s ∧
      s.releases = [⟨some 0, none⟩, ⟨some 0, some 0⟩] ∧ ¬ Host.Balanced s) ∧
    ∃ s, Target.setupSystem.Run [.allocQueue none, .releaseQueue 0] s ∧ s.queues = [] ∧
      s.arena.live = [2, 1, 0] ∧ ¬ Target.Balanced s := by
  refine ⟨?_, ?_, ?_⟩
  · obtain ⟨s, hs, hlive, hq⟩ :=
      @Runs.System.exists_runIn_of_execIn _ _ (Host.setupSystem 3) (fun _ _ => True) _
      (fun s => s.arena.live = [1, 0] ∧ (s.queues 0).allocated = false) _
      [.setupCtrl { goodSetup with adminQueue := some .connect }] (by decide +kernel)
    refine ⟨s, hs, hlive, hq, fun hbal => ?_⟩
    obtain ⟨_, -, hok, -⟩ :=
      @Runs.System.RunIn.last _ _ _ _ [] _ _ ((Host.setupSystem_balanced hs).1 hbal)
    exact absurd hok.1 (by simp)
  · obtain ⟨s, hs, hrel⟩ :=
      @Runs.System.exists_runIn_of_execIn _ _ (Host.setupSystem 1) (fun _ _ => True) _
      (fun s => s.releases = [⟨some 0, none⟩, ⟨some 0, some 0⟩]) _ [.setupCtrl goodSetup, .teardown,
        .setupCtrl { goodSetup with adminQueue := some .caravanIovs }] (by decide +kernel)
    refine ⟨s, hs, hrel, fun hbal => ?_⟩
    obtain ⟨_, -, hok, -⟩ :=
      @Runs.System.RunIn.last _ _ _ _ [_, _] _ _ ((Host.setupSystem_balanced hs).1 hbal)
    exact absurd hok.1 (by simp)
  · obtain ⟨s, hs, hq, hlive⟩ :=
      @Runs.System.exists_runIn_of_execIn _ _ Target.setupSystem (fun _ _ => True) _
      (fun s => s.queues = [] ∧ s.arena.live = [2, 1, 0]) _ [.allocQueue none, .releaseQueue 0]
        (by decide +kernel)
    refine ⟨s, hs, hq, hlive, fun hbal => ?_⟩
    obtain ⟨_, -, hok, -⟩ :=
      @Runs.System.RunIn.last _ _ _ _ [_] _ _ ((Target.setupSystem_balanced hs).1 hbal)
    exact hok

end Samples

end BlkSwitch
