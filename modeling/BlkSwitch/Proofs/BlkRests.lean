import BlkSwitch.Proofs.BlkCustody

/-! A request that waits is at rest: it is idle and, when a scheduler gives it a tag of its own, it
has no tag of the driver, so that waiting requests never keep the driver's tags from others. -/

namespace BlkSwitch.Blk

open MqState

section Rests

variable {c : MqConfig} {s s' s'' : MqState} {T : ℕ → Prop} {r w : ℕ}

/-- The request is the next one of a dispatch, which has fetched its tag already for the flag
`last`. -/
def NextUp (s : MqState) (r : ℕ) : Prop :=
  ∃ w call rest, s.calls w = some call ∧ call.pc = .loop ∧ s.lists.calls w = r :: rest

/-- What the fields of a request say about where it is. -/
structure RestsAt (s : MqState) (r : ℕ) : Prop where
  started : (s.rq r).state ≠ .idle → r ∈ s.lists.driver
  tagged : (s.rq r).tags.internalTag.isSome → s.hasTag r = true → r ∈ s.lists.driver ∨
    r ∈ s.lists.ended ∨ NextUp s r
  barrier : (s.rq r).softbarrier = true → r ∈ s.lists.requeue ∨ r ∈ s.lists.requeuing

/-- Outside of `T` requests are as before, and are not taken back from where their fields say they
are. -/
structure Still (T : ℕ → Prop) (s s' : MqState) : Prop where
  rq : ∀ r, ¬ T r → s'.rq r = s.rq r
  driver : ∀ r, ¬ T r → r ∈ s.lists.driver → r ∈ s'.lists.driver
  ended : ∀ r, ¬ T r → r ∈ s.lists.ended → r ∈ s'.lists.ended
  requeue : ∀ r, ¬ T r → r ∈ s.lists.requeue ∨ r ∈ s.lists.requeuing → r ∈ s'.lists.requeue ∨
    r ∈ s'.lists.requeuing
  next : ∀ r, ¬ T r → NextUp s r → NextUp s' r

theorem Still.refl (s : MqState) : Still T s s :=
  ⟨fun _ _ => rfl, fun _ _ => id, fun _ _ => id, fun _ _ => id, fun _ _ => id⟩

theorem Still.trans (h : Still T s s') (h' : Still T s' s'') : Still T s s'' where
  rq := fun r hr => (h'.rq r hr).trans (h.rq r hr)
  driver := fun r hr hd => h'.driver r hr (h.driver r hr hd)
  ended := fun r hr hd => h'.ended r hr (h.ended r hr hd)
  requeue := fun r hr hd => h'.requeue r hr (h.requeue r hr hd)
  next := fun r hr hd => h'.next r hr (h.next r hr hd)

/-- A step keeps what it is about at rest, if it leaves all others alone. -/
theorem RestsAt.step (hs : ∀ r, RestsAt s r) (h : Still T s s') (hT : ∀ r, T r → RestsAt s' r)
    (r : ℕ) :
    RestsAt s' r := by
  by_cases hr : T r
  · exact hT r hr
  · have heq := h.rq r hr
    constructor
    · rw [heq]
      exact fun hst => h.driver r hr ((hs r).started hst)
    · rw [hasTag, heq]
      intro hi ht
      rcases (hs r).tagged hi ht with hd | he | hn
      · exact .inl (h.driver r hr hd)
      · exact .inr (.inl (h.ended r hr he))
      · exact .inr (.inr (h.next r hr hn))
    · rw [heq]
      exact fun hb => h.requeue r hr ((hs r).barrier hb)

theorem Still.elsewhere (hrq : s'.rq = s.rq) (hd : s'.lists.driver = s.lists.driver)
    (he : s'.lists.ended = s.lists.ended) (hq : s'.lists.requeue = s.lists.requeue)
    (hqq : s'.lists.requeuing = s.lists.requeuing) (hl : s'.lists.calls = s.lists.calls)
    (hc : s'.calls = s.calls) : Still T s s' where
  rq := fun r _ => by rw [hrq]
  driver := fun r _ => by rw [hd]; exact id
  ended := fun r _ => by rw [he]; exact id
  requeue := fun r _ => by rw [hq, hqq]; exact id
  next := fun r _ => by unfold NextUp; rw [hl, hc]; exact id

theorem ne_of_apart {x : ℕ} (hr : T r) (hx : ¬ T x) : x ≠ r := by
  rintro rfl
  exact hx hr

theorem still_setRq (f : MqRequest → MqRequest) (hr : T r) : Still T s (s.setRq r f) where
  rq := fun _ hx => Function.update_of_ne (ne_of_apart hr hx) _ _
  driver := fun _ _ => id
  ended := fun _ _ => id
  requeue := fun _ _ => id
  next := fun _ _ => id

theorem still_onTags (f : TagRequest → TagState → TagRequest × TagState) (hr : T r) :
    Still T s (s.onTags c f r) where
  rq := fun _ hx => Function.update_of_ne (ne_of_apart hr hx) _ _
  driver := fun _ _ => id
  ended := fun _ _ => id
  requeue := fun _ _ => id
  next := fun _ _ => id

theorem still_getDriverTag (got : Option ℕ) (hr : T r) : Still T s (s.getDriverTag c got r) :=
  still_onTags _ hr

theorem still_requeueRequest (hr : T r) : Still T s (s.requeueRequest c r) :=
  (still_onTags _ hr).trans (still_setRq _ hr)

theorem still_start (hr : T r) (started : Bool) :
    Still T s (if started then s.blkMqStartRequest r else s) := by
  split_ifs
  · exact still_setRq _ hr
  · exact .refl s

theorem still_setFlags (h : ℕ) (f : HctxFlags → HctxFlags) : Still T s (s.setFlags h f) :=
  .elsewhere rfl rfl rfl rfl rfl rfl rfl

theorem still_updateDispatchBusy (h : ℕ) (busy : Bool) :
    Still T s (s.updateDispatchBusy c h busy) := by
  unfold updateDispatchBusy
  split_ifs
  · exact .refl s
  · exact still_setFlags h _

theorem still_delayRun (async here : Bool) (h : ℕ) :
    Still T s (s.delayRunHwQueue c async here h) := by
  unfold delayRunHwQueue
  split_ifs
  · exact .refl s
  · exact still_setFlags h _
  · exact still_setFlags h _

theorem still_markTagWait (again : Option ℕ) (hr : T r) :
    Still T s (s.markTagWait c again r).2 := by
  unfold markTagWait
  dsimp only
  split_ifs
  · exact (still_setFlags _ _).trans (still_getDriverTag again hr)
  · exact .refl s
  · dsimp only
    refine .trans ?_ (still_setFlags _ _)
    exact (still_setFlags _ _).trans (still_getDriverTag again hr)
  · exact (still_setFlags _ _).trans (still_getDriverTag again hr)

theorem still_toDriver (r : ℕ) : Still T s (s.toDriver r) where
  rq := fun _ _ => rfl
  driver := fun _ _ hd => List.mem_append_left _ hd
  ended := fun _ _ => id
  requeue := fun _ _ => id
  next := fun _ _ => id

theorem still_end (hr : T r) : Still T s (s.blkMqEndRequest c r) := by
  refine ((still_onTags _ hr).trans (still_setRq _ hr)).trans
    ⟨fun _ _ => rfl, fun _ _ => id, ?_, fun _ _ => id, fun _ _ => id⟩
  exact fun _ _ he => List.mem_append_left _ he

theorem still_bypass (atHead runQueue : Bool) : Still T s (s.bypassInsert r atHead runQueue) := by
  cases runQueue <;> exact .elsewhere rfl rfl rfl rfl rfl rfl rfl

theorem still_requeueList (hr : T r) (atHead kick : Bool) :
    Still T s (s.addToRequeueList r atHead kick) := by
  cases atHead with
  | true =>
    refine (still_setRq (fun rq => { rq with softbarrier := true }) hr).trans
      ⟨fun _ _ => rfl, fun _ _ => id, fun _ _ => id, fun x _ hx => ?_, fun _ _ => id⟩
    exact hx.imp (List.mem_cons_of_mem r) id
  | false =>
    refine ⟨fun _ _ => rfl, fun _ _ => id, fun _ _ => id, fun x _ hx => ?_, fun _ _ => id⟩
    exact hx.imp (List.mem_append_left _) id

/-- What a call and its list become is of no matter to requests that are not next up in it. -/
theorem still_call (hw : ∀ call r rest, s.calls w = some call → call.pc = .loop →
    s.lists.calls w = r :: rest → T r) (hrq : s'.rq = s.rq) (hd : s'.lists.driver = s.lists.driver)
    (he : s'.lists.ended = s.lists.ended)
    (hq : s'.lists.requeue = s.lists.requeue) (hqq : s'.lists.requeuing = s.lists.requeuing)
    (hl : ∀ x, x ≠ w → s'.lists.calls x = s.lists.calls x)
    (hc : ∀ x, x ≠ w → s'.calls x = s.calls x) : Still T s s' where
  rq := fun r _ => by rw [hrq]
  driver := fun r _ => by rw [hd]; exact id
  ended := fun r _ => by rw [he]; exact id
  requeue := fun r _ => by rw [hq, hqq]; exact id
  next := by
    rintro r hr ⟨x, call, rest, hcall, hpc, hlist⟩
    have hx : x ≠ w := by
      rintro rfl
      exact hr (hw call r rest hcall hpc hlist)
    exact ⟨x, call, rest, (hc x hx).trans hcall, hpc, (hl x hx).trans hlist⟩

end Rests

/-! What the functions make of the fields. -/

section Fields

variable {c : MqConfig} {s : MqState} {r x : ℕ}

/-- Neither started nor to go to the head of a queue. -/
structure Quiet (rq : MqRequest) : Prop where
  idle : rq.state = .idle
  barrier : rq.softbarrier = false

/-- A request with a scheduler's tag has no other. -/
def Bare (rq : MqRequest) : Prop := rq.tags.internalTag.isSome → rq.tags.tag = none

theorem setRq_rq_self (f : MqRequest → MqRequest) : (s.setRq r f).rq r = f (s.rq r) :=
  Function.update_self ..

theorem setRq_rq_ne {f : MqRequest → MqRequest} (hx : x ≠ r) : (s.setRq r f).rq x = s.rq x :=
  Function.update_of_ne hx _ _

theorem withLists_rq (f : MqLists → MqLists) : (s.withLists f).rq = s.rq := rfl

theorem onTags_rq_ne {f : TagRequest → TagState → TagRequest × TagState} (hx : x ≠ r) :
    (s.onTags c f r).rq x = s.rq x := Function.update_of_ne hx _ _

theorem onTags_rq_self (f : TagRequest → TagState → TagRequest × TagState) :
    (s.onTags c f r).rq r =
      { s.rq r with tags := (f (s.rq r).tags ⟨c.tagShared, s.nrActive, []⟩).1 } :=
  Function.update_self ..

theorem onTags_quiet {f : TagRequest → TagState → TagRequest × TagState} (hq : Quiet (s.rq x)) :
    Quiet ((s.onTags c f r).rq x) := by
  by_cases hx : x = r
  · subst hx
    rw [onTags_rq_self]
    exact ⟨hq.idle, hq.barrier⟩
  · rwa [onTags_rq_ne hx]

theorem put_bare : Bare ((s.putDriverTag c r).rq r) := by
  unfold MqState.putDriverTag
  rw [onTags_rq_self]
  unfold Bare blkMqPutDriverTag Blk.putDriverTag
  intro hi
  split_ifs at hi ⊢ with hnone hin
  · rcases hnone with ht | hi'
    · exact Option.isNone_iff_eq_none.1 ht
    · rw [Option.isNone_iff_eq_none] at hi'
      simp [hi'] at hi
  · rfl
  · rfl

theorem requeue_quiet (hb : (s.rq r).softbarrier = false) :
    Quiet ((s.requeueRequest c r).rq r) := by
  have hput : ((s.putDriverTag c r).rq r).softbarrier = false := by
    unfold MqState.putDriverTag
    rw [onTags_rq_self]
    exact hb
  unfold requeueRequest
  rw [setRq_rq_self]
  split_ifs with hidle
  · exact ⟨rfl, hput⟩
  · exact ⟨not_not.1 hidle, hput⟩

theorem requeue_bare : Bare ((s.requeueRequest c r).rq r) := by
  have hput := put_bare (c := c) (s := s) (r := r)
  unfold requeueRequest
  rw [setRq_rq_self]
  split_ifs
  · exact hput
  · exact hput

theorem requeue_ne (hx : x ≠ r) : (s.requeueRequest c r).rq x = s.rq x :=
  (setRq_rq_ne hx).trans (onTags_rq_ne hx)

theorem end_quiet (hb : (s.rq r).softbarrier = false) : Quiet ((s.blkMqEndRequest c r).rq r) := by
  unfold MqState.blkMqEndRequest
  rw [withLists_rq, setRq_rq_self, onTags_rq_self]
  exact ⟨rfl, hb⟩

theorem end_ne (hx : x ≠ r) : (s.blkMqEndRequest c r).rq x = s.rq x := by
  unfold MqState.blkMqEndRequest
  rw [withLists_rq, setRq_rq_ne hx, onTags_rq_ne hx]

theorem start_ne (started : Bool) (hx : x ≠ r) :
    (if started then s.blkMqStartRequest r else s).rq x = s.rq x := by
  split_ifs
  · exact setRq_rq_ne hx
  · rfl

theorem start_barrier (started : Bool) (hb : (s.rq r).softbarrier = false) :
    ((if started then s.blkMqStartRequest r else s).rq r).softbarrier = false := by
  split_ifs
  · unfold blkMqStartRequest
    rwa [setRq_rq_self]
  · exact hb

theorem RestsAt.of_bare (hq : Quiet (s.rq r)) (hb : Bare (s.rq r)) : RestsAt s r where
  started := fun hst => absurd hq.idle hst
  tagged := by
    intro hi ht
    rw [hasTag, hb hi] at ht
    cases ht
  barrier := by
    intro hbar
    rw [hq.barrier] at hbar
    cases hbar

theorem RestsAt.of_driver (hb : (s.rq r).softbarrier = false) (hd : r ∈ s.lists.driver) :
    RestsAt s r where
  started := fun _ => hd
  tagged := fun _ _ => .inl hd
  barrier := by
    intro hbar
    rw [hb] at hbar
    cases hbar

theorem RestsAt.of_quiet (hq : Quiet (s.rq r)) (ht : r ∈ s.lists.ended ∨ NextUp s r) :
    RestsAt s r where
  started := fun hst => absurd hq.idle hst
  tagged := fun _ _ => .inr ht
  barrier := by
    intro hbar
    rw [hq.barrier] at hbar
    cases hbar

theorem RestsAt.idle {p : Place} (hs : RestsAt s r) (hc : Custody s.lists) (hp : r ∈ s.lists.on p)
    (hd : p ≠ .driver) :
    (s.rq r).state = .idle := by
  by_contra hst
  exact hd (hc.once hp (hs.started hst : r ∈ s.lists.on .driver))

theorem RestsAt.noBarrier {p : Place} (hs : RestsAt s r) (hc : Custody s.lists)
    (hp : r ∈ s.lists.on p) (hq : p ≠ .requeue) (hqq : p ≠ .requeuing) :
    (s.rq r).softbarrier = false := by
  by_contra hb
  rcases hs.barrier (by simpa using hb) with hr | hr
  · exact hq (hc.once hp (hr : r ∈ s.lists.on .requeue))
  · exact hqq (hc.once hp (hr : r ∈ s.lists.on .requeuing))

theorem RestsAt.quiet {p : Place} (hs : RestsAt s r) (hc : Custody s.lists) (hp : r ∈ s.lists.on p)
    (hd : p ≠ .driver) (hq : p ≠ .requeue) (hqq : p ≠ .requeuing) : Quiet (s.rq r) :=
  ⟨hs.idle hc hp hd, hs.noBarrier hc hp hq hqq⟩

theorem RestsAt.bare {p : Place} (hs : RestsAt s r) (hc : Custody s.lists) (hp : r ∈ s.lists.on p)
    (hd : p ≠ .driver) (he : p ≠ .ended) (hw : ¬ NextUp s r) : Bare (s.rq r) := by
  intro hi
  by_contra ht
  rcases hs.tagged hi (Option.isSome_iff_ne_none.2 ht) with hr | hr | hr
  · exact hd (hc.once hp (hr : r ∈ s.lists.on .driver))
  · exact he (hc.once hp (hr : r ∈ s.lists.on .ended))
  · exact hw hr

theorem NextUp.call (hc : Custody s.lists) {w : ℕ} (hr : NextUp s r) (hw : r ∈ s.lists.calls w) :
    ∃ call rest, s.calls w = some call ∧ call.pc = .loop ∧ s.lists.calls w = r :: rest := by
  obtain ⟨w', call, rest, hcall, hpc, hl⟩ := hr
  have hr' : r ∈ s.lists.on (.call w') := by simp [MqLists.on, hl]
  have hw' := hc.once (p := .call w) hw hr'
  cases hw'
  exact ⟨call, rest, hcall, hpc, hl⟩

theorem NextUp.not_on (hc : Custody s.lists) {p : Place} (hp : r ∈ s.lists.on p)
    (hne : ∀ w, p ≠ .call w) : ¬ NextUp s r := by
  rintro ⟨w, call, rest, -, -, hl⟩
  have hr : r ∈ s.lists.on (.call w) := by simp [MqLists.on, hl]
  exact hne w (hc.once hp hr)

theorem rests_requeueList (atHead kick : Bool) (hq : Quiet (s.rq r)) (hb : Bare (s.rq r)) :
    RestsAt (s.addToRequeueList r atHead kick) r := by
  cases atHead with
  | false => exact .of_bare hq hb
  | true =>
    have hself : (s.setRq r fun rq => { rq with softbarrier := true }).rq r =
        { s.rq r with softbarrier := true } :=
      setRq_rq_self _
    have hput : (s.addToRequeueList r true kick).rq =
      (s.setRq r fun rq => { rq with softbarrier := true }).rq := rfl
    refine ⟨fun hst => ?_, fun hi ht => ?_, fun _ => .inl List.mem_cons_self⟩
    · rw [hput, hself] at hst
      exact absurd hq.idle hst
    · rw [hput, hself] at hi
      rw [hasTag, hput, hself] at ht
      exact absurd (hb hi) (Option.isSome_iff_ne_none.1 ht)

end Fields

section Dispatch

variable {c : MqConfig} {s : MqState} {r w : ℕ} {rest : List ℕ}

def Front (r : ℕ) (rest : List ℕ) (x : ℕ) : Prop := x = r ∨ x ∈ rest.head?

theorem still_tagNext (c : MqConfig) (s : MqState) (r : ℕ) (rest : List ℕ) (got : Option ℕ) :
    Still (Front r rest) s (tagNext c got rest s) := by
  cases rest with
  | nil => exact .refl s
  | cons nxt l => exact still_getDriverTag got (.inr rfl)

theorem still_untagNext : Still (Front r rest) s (untagNext c rest s) := by
  cases rest with
  | nil => exact .refl s
  | cons nxt l => exact still_onTags _ (.inr rfl)

/-- Before a turn: the head is at rest but for its tag, and the request behind it has none. -/
structure FrontRests (s : MqState) (r : ℕ) (rest : List ℕ) : Prop where
  head : Quiet (s.rq r)
  next : ∀ nxt ∈ rest.head?, nxt ≠ r ∧ Quiet (s.rq nxt) ∧ Bare (s.rq nxt)

theorem FrontRests.of_custody (hs : ∀ x, RestsAt s x) (hc : Custody s.lists)
    (hl : s.lists.calls w = r :: rest) :
    FrontRests s r rest := by
  have hquiet : ∀ x, x ∈ s.lists.on (.call w) → Quiet (s.rq x) :=
    fun x hx => (hs x).quiet hc hx (by simp) (by simp) (by simp)
  have hr : r ∈ s.lists.on (.call w) := by simp [MqLists.on, hl]
  refine ⟨hquiet r hr, fun nxt hn => ?_⟩
  obtain ⟨l, rfl⟩ : ∃ l, rest = nxt :: l := List.head?_eq_some_iff.1 hn
  have hnxt : nxt ∈ s.lists.on (.call w) := by simp [MqLists.on, hl]
  have hnd := hc.nodup (.call w)
  simp only [MqLists.on, hl] at hnd
  have hne : nxt ≠ r := by
    rintro rfl
    simp at hnd
  refine ⟨hne, hquiet nxt hnxt, (hs nxt).bare hc hnxt (by simp) (by simp) fun hup => ?_⟩
  obtain ⟨call, rest', -, -, hl'⟩ := hup.call hc hnxt
  rw [hl] at hl'
  exact hne (List.cons.inj hl').1.symm

theorem RestsAt.of_next {x : ℕ} {call : DispatchCall} (hq : Quiet (s.rq x)) (hx : x ∈ rest.head?)
    (hcall : s.calls w = some call) (hpc : call.pc = if rest = [] then .out else .loop)
    (hl : s.lists.calls w = rest) :
    RestsAt s x := by
  obtain ⟨l, rfl⟩ : ∃ l, rest = x :: l := List.head?_eq_some_iff.1 hx
  exact .of_quiet hq (.inr ⟨w, call, l, hcall, hpc, hl⟩)

theorem still_front {l : List ℕ} (hl : s.lists.calls w = l) (hfront : ∀ x ∈ l.head?, Front r rest x)
    (new : Option DispatchCall) : Still (Front r rest) s (setCall w new s) := by
  refine still_call (w := w) (fun _ x _ _ _ hx => ?_) rfl rfl rfl rfl rfl
    (fun _ _ => rfl) fun y hy => ?_
  · rw [hl] at hx
    exact hfront x (by rw [hx]; rfl)
  · exact Function.update_of_ne hy _ _

theorem still_offCall (hl : s.lists.calls w = r :: rest) :
    Still (Front r rest) s (offCall w r rest s) := by
  refine still_call (w := w) (fun _ x _ _ _ hx => ?_) rfl rfl rfl rfl rfl
    (fun y hy => ?_) fun _ _ => rfl
  · rw [hl] at hx
    exact .inl (List.cons.inj hx).1.symm
  · exact Function.update_of_ne hy _ _

/-- Giving the head to the driver leaves it with the driver, done or as before, and the one behind
it next. -/
theorem rests_dispatchIssue (env : DispatchEnv) (call : DispatchCall)
    (hl : s.lists.calls w = r :: rest) (hf : FrontRests s r rest) :
    Still (Front r rest) s (dispatchIssue c env w r rest call s) ∧
      ∀ x, Front r rest x → RestsAt (dispatchIssue c env w r rest call s) x := by
  have hstill := (still_tagNext c s r rest env.nextTag).trans
    (still_start (.inl rfl) env.started)
  have hquiet : ∀ x, Quiet (s.rq x) → Quiet ((tagNext c env.nextTag rest s).rq x) := by
    intro x hx
    cases rest with
    | nil => exact hx
    | cons nxt l => exact onTags_quiet hx
  have hbarrier := start_barrier env.started (hquiet r hf.head).barrier
  have hnext : ∀ nxt ∈ rest.head?,
    Quiet ((if env.started then (tagNext c env.nextTag rest s).blkMqStartRequest r
      else tagNext c env.nextTag rest s).rq nxt) := by
    intro nxt hn
    rw [start_ne env.started (hf.next nxt hn).1]
    exact hquiet nxt (hf.next nxt hn).2.1
  have hlist : (if env.started then (tagNext c env.nextTag rest s).blkMqStartRequest r
      else tagNext c env.nextTag rest s).lists.calls w = r :: rest := by
    rw [← hl]
    split_ifs
    · rw [startRequest_lists, tagNext_lists]
    · rw [tagNext_lists]
  unfold dispatchIssue
  dsimp only
  generalize (if env.started then (tagNext c env.nextTag rest s).blkMqStartRequest r
      else tagNext c env.nextTag rest s) = s₂ at *
  have hoff := still_offCall hlist
  cases env.ret with
  | resource | devResource =>
    have hback := (hstill.trans (still_untagNext (c := c))).trans
      (still_requeueRequest (c := c) (r := r) (.inl rfl))
    have hbarrier' : ((untagNext c rest s₂).rq r).softbarrier = false := by
      cases rest with
      | nil => exact hbarrier
      | cons nxt l =>
        have hne := (hf.next nxt rfl).1
        have heq : (untagNext c (nxt :: l) s₂).rq r = s₂.rq r := onTags_rq_ne hne.symm
        rw [heq]
        exact hbarrier
    have hlist' : ((untagNext c rest s₂).requeueRequest c r).lists.calls w = r :: rest := by
      rw [requeueRequest_lists, untagNext_lists]
      exact hlist
    refine ⟨hback.trans (still_front hlist' (fun x hx => .inl (Option.some.inj hx).symm) _), ?_⟩
    rintro x (rfl | hx)
    · exact .of_bare (requeue_quiet hbarrier') requeue_bare
    · have hrq : ((untagNext c rest s₂).requeueRequest c r).rq x = (untagNext c rest s₂).rq x :=
        requeue_ne (hf.next x hx).1
      obtain ⟨l, rfl⟩ : ∃ l, rest = x :: l := List.head?_eq_some_iff.1 hx
      refine .of_bare ?_ ?_
      · change Quiet (((untagNext c (x :: l) s₂).requeueRequest c r).rq x)
        rw [hrq]
        exact onTags_quiet (hnext x hx)
      · change Bare (((untagNext c (x :: l) s₂).requeueRequest c r).rq x)
        rw [hrq]
        exact put_bare
  | ioerr =>
    have hend := hoff.trans (still_end (c := c) (r := r) (.inl rfl))
    have hlist' : ((offCall w r rest s₂).blkMqEndRequest c r).lists.calls w = rest :=
      Function.update_self ..
    refine ⟨(hstill.trans hend).trans (still_front hlist' (fun x hx => .inr hx) _), ?_⟩
    rintro x (rfl | hx)
    · exact .of_quiet (end_quiet hbarrier)
        (.inl (List.mem_append_right _ (List.mem_singleton.2 rfl)))
    · refine .of_next ?_ hx (Function.update_self ..) rfl hlist'
      change Quiet (((offCall w r rest s₂).blkMqEndRequest c r).rq x)
      rw [end_ne (hf.next x hx).1]
      exact hnext x hx
  | ok =>
    have hlist' : ((offCall w r rest s₂).toDriver r).lists.calls w = rest := Function.update_self ..
    refine ⟨(hstill.trans (hoff.trans (still_toDriver r))).trans
      (still_front hlist' (fun x hx => .inr hx) _), ?_⟩
    rintro x (rfl | hx)
    · exact .of_driver hbarrier (List.mem_append_right _ (List.mem_singleton.2 rfl))
    · exact .of_next (hnext x hx) hx (Function.update_self ..) rfl hlist'

theorem FrontRests.of_head {s' : MqState} (hf : FrontRests s r rest) (hstill : Still (· = r) s s')
    (hq : Quiet (s'.rq r)) :
    FrontRests s' r rest := by
  refine ⟨hq, fun nxt hn => ?_⟩
  have hne := (hf.next nxt hn).1
  rw [hstill.rq nxt hne]
  exact hf.next nxt hn

theorem Still.widen {T T' : ℕ → Prop} {s s' : MqState} (h : Still T s s') (hT : ∀ x, T x → T' x) :
    Still T' s s' where
  rq := fun x hx => h.rq x fun hx' => hx (hT x hx')
  driver := fun x hx => h.driver x fun hx' => hx (hT x hx')
  ended := fun x hx => h.ended x fun hx' => hx (hT x hx')
  requeue := fun x hx => h.requeue x fun hx' => hx (hT x hx')
  next := fun x hx => h.next x fun hx' => hx (hT x hx')

theorem markTagWait_quiet (again : Option ℕ) (hq : Quiet (s.rq r)) :
    Quiet ((s.markTagWait c again r).2.rq r) := by
  unfold markTagWait
  dsimp only
  split_ifs
  · exact onTags_quiet hq
  · exact hq
  · exact onTags_quiet (s := s.setFlags _ _) hq
  · exact onTags_quiet hq

theorem markTagWait_untagged (again : Option ℕ) (ht : (s.markTagWait c again r).1 = false)
    (hs : s.hasTag r = false) :
    (s.markTagWait c again r).2.hasTag r = false := by
  unfold markTagWait at ht ⊢
  dsimp only at ht ⊢
  split_ifs at ht ⊢ with hshared hwait htag
  · exact ht
  · exact hs
  · simpa using htag

theorem rests_dispatchTurn (env : DispatchEnv) (call : DispatchCall)
    (hl : s.lists.calls w = r :: rest) (hf : FrontRests s r rest) :
    Still (Front r rest) s (dispatchTurn c env w r rest call s) ∧
      ∀ x, Front r rest x → RestsAt (dispatchTurn c env w r rest call s) x := by
  have hhead : ∀ {s₁ : MqState}, Still (· = r) s s₁ → Still (Front r rest) s s₁ :=
    fun h => h.widen fun _ => .inl
  have hout : ∀ (s₁ : MqState) new, Still (· = r) s s₁ → s₁.lists.calls w = r :: rest →
    Quiet (s₁.rq r) →
      Bare (s₁.rq r) → Still (Front r rest) s (setCall w new s₁) ∧ ∀ x, Front r rest x →
        RestsAt (setCall w new s₁) x := by
    intro s₁ new hstill hl₁ hq hb
    refine ⟨(hhead hstill).trans (still_front hl₁ (fun x hx => .inl (Option.some.inj hx).symm) new),
      ?_⟩
    rintro x (rfl | hx)
    · exact .of_bare hq hb
    · have hfront := hf.of_head hstill hq
      exact .of_bare (hfront.next x hx).2.1 (hfront.next x hx).2.2
  have htag : Still (· = r) s (s.getDriverTag c env.tag r) := still_getDriverTag env.tag rfl
  have hquiet : Quiet ((s.getDriverTag c env.tag r).rq r) := onTags_quiet hf.head
  unfold dispatchTurn
  dsimp only
  split_ifs with hbudget hgot
  · exact hout _ _ (still_onTags _ rfl) hl (onTags_quiet hf.head) put_bare
  · obtain ⟨hstill, hrest⟩ := rests_dispatchIssue (s := s.getDriverTag c env.tag r) env
      { call with hctx := s.hctxOf r } hl (hf.of_head htag hquiet)
    exact ⟨(hhead htag).trans hstill, hrest⟩
  · have hmark := htag.trans (still_markTagWait (c := c) env.tagAgain rfl)
    have hq := markTagWait_quiet (c := c) env.tagAgain hquiet
    have hlists := markTagWait_lists c (s.getDriverTag c env.tag r) r env.tagAgain
    have huntagged := markTagWait_untagged (c := c) (s := s.getDriverTag c env.tag r)
      (r := r) env.tagAgain
    rcases hres : (s.getDriverTag c env.tag r).markTagWait c env.tagAgain r with ⟨_ | _, s₁⟩
    all_goals rw [hres] at hmark hq hlists
    · rw [hres] at huntagged
      have hl₁ : s₁.lists.calls w = r :: rest := by rw [hlists]; exact hl
      refine hout _ _ hmark hl₁ hq fun _ => ?_
      have hnone := huntagged rfl (by simpa using hgot)
      simpa [hasTag] using hnone
    · have hl₁ : s₁.lists.calls w = r :: rest := by rw [hlists]; exact hl
      obtain ⟨hstill, hrest⟩ :=
        rests_dispatchIssue (c := c) env { call with hctx := s.hctxOf r } hl₁
        (hf.of_head hmark hq)
      exact ⟨(hhead hmark).trans hstill, hrest⟩

end Dispatch

section Issue

variable {c : MqConfig} {s : MqState} {r w : ℕ} {rest : List ℕ}

/-- What an attempt to issue a request makes of it: it has found a place, or it is as before, or it
is to be ended. -/
structure IssueRests (s : MqState) (r : ℕ) (res : BlkStatus × MqState) : Prop where
  still : Still (· = r) s res.2
  barrier : (res.2.rq r).softbarrier = false
  placed : res.1 = .ok → RestsAt res.2 r
  back : res.1 = .resource ∨ res.1 = .devResource → Quiet (res.2.rq r) ∧ Bare (res.2.rq r)

theorem bypassInsert_rq (atHead runQueue : Bool) :
    (s.bypassInsert r atHead runQueue).rq = s.rq := by
  cases runQueue <;> rfl

theorem rests_bypass {x : ℕ} (atHead runQueue : Bool) (hq : Quiet (s.rq x)) (hb : Bare (s.rq x)) :
    RestsAt (s.bypassInsert r atHead runQueue) x := by
  refine .of_bare ?_ ?_
  · rwa [bypassInsert_rq]
  · rwa [bypassInsert_rq]

theorem rests_insertUnless (bypass : Bool) (hq : Quiet (s.rq r)) (hb : Bare (s.rq r)) :
    IssueRests s r (insertUnless bypass r s) := by
  unfold insertUnless
  split_ifs
  · exact ⟨.refl s, hq.barrier, fun h => (by cases h), fun _ => ⟨hq, hb⟩⟩
  · refine ⟨still_bypass (r := r) false true, ?_, fun _ => rests_bypass (r := r) false true hq hb,
      fun h => ?_⟩
    · rw [bypassInsert_rq]
      exact hq.barrier
    · rcases h with h | h <;> cases h

theorem rests_issueDirectly (env : IssueEnv) (hq : Quiet (s.rq r)) :
    IssueRests s r (issueDirectly c env r s) := by
  have hstart : Still (· = r) s (if env.started then s.blkMqStartRequest r else s) :=
    still_start (T := (· = r)) rfl env.started
  have hbarrier := start_barrier env.started hq.barrier
  have hbusy : ∀ {s₁ : MqState} (busy : Bool), Still (· = r) s s₁ → (s₁.rq r).softbarrier = false →
      Still (· = r) s (s₁.updateDispatchBusy c (s.hctxOf r) busy) ∧
        ((s₁.updateDispatchBusy c (s.hctxOf r) busy).rq r).softbarrier = false := by
    intro s₁ busy hstill hb
    refine ⟨hstill.trans (still_updateDispatchBusy _ busy), ?_⟩
    unfold updateDispatchBusy
    split_ifs <;> exact hb
  unfold issueDirectly
  dsimp only
  generalize (if env.started then s.blkMqStartRequest r else s) = s₁ at *
  cases env.ret with
  | ok =>
    obtain ⟨hstill, hb⟩ := hbusy false hstart hbarrier
    refine ⟨hstill.trans (still_toDriver r), hb, fun _ => .of_driver hb ?_, fun h => ?_⟩
    · exact List.mem_append_right _ (List.mem_singleton.2 rfl)
    · rcases h with h | h <;> cases h
  | resource | devResource =>
    obtain ⟨hstill, hb⟩ := hbusy true hstart hbarrier
    have hquiet := requeue_quiet (c := c) hb
    exact ⟨hstill.trans (still_requeueRequest rfl), hquiet.barrier, fun h => (by cases h),
      fun _ => ⟨hquiet, requeue_bare⟩⟩
  | ioerr =>
    obtain ⟨hstill, hb⟩ := hbusy false hstart hbarrier
    refine ⟨hstill, hb, fun h => (by cases h), fun h => ?_⟩
    rcases h with h | h <;> cases h

theorem rests_tryIssue (env : IssueEnv) (bypass : Bool) (hq : Quiet (s.rq r)) (hb : Bare (s.rq r)) :
    IssueRests s r (tryIssue c env bypass r s) := by
  have htag : Still (· = r) s (s.getDriverTag c env.tag r) := still_getDriverTag env.tag rfl
  have hquiet : Quiet ((s.getDriverTag c env.tag r).rq r) := onTags_quiet hq
  have hafter : ∀ {res : BlkStatus × MqState}, IssueRests (s.getDriverTag c env.tag r) r res →
      IssueRests s r res :=
    fun h => ⟨htag.trans h.still, h.barrier, h.placed, h.back⟩
  unfold tryIssue
  dsimp only
  split_ifs with hstop helev hbudget hgot
  · refine ⟨still_bypass (r := r) false false, ?_, fun _ => rests_bypass (r := r) false false hq hb,
      fun h => ?_⟩
    · rw [bypassInsert_rq]
      exact hq.barrier
    · rcases h with h | h <;> cases h
  · exact rests_insertUnless bypass hq hb
  · exact rests_insertUnless bypass hq hb
  · exact hafter (rests_issueDirectly env hquiet)
  · refine hafter (rests_insertUnless bypass hquiet fun _ => ?_)
    simpa [hasTag] using hgot

theorem rests_tryIssueDirectly (env : IssueEnv) (hq : Quiet (s.rq r)) (hb : Bare (s.rq r)) :
    Still (· = r) s (blkMqTryIssueDirectly c env r s) ∧
      RestsAt (blkMqTryIssueDirectly c env r s) r := by
  have htry := rests_tryIssue (c := c) env false hq hb
  unfold blkMqTryIssueDirectly
  rcases hres : tryIssue c env false r s with ⟨st, s₁⟩
  rw [hres] at htry
  cases st with
  | ok => exact ⟨htry.still, htry.placed rfl⟩
  | resource | devResource =>
    obtain ⟨hq₁, hb₁⟩ := htry.back (by simp)
    exact ⟨htry.still.trans (still_bypass _ _), rests_bypass _ _ hq₁ hb₁⟩
  | ioerr =>
    refine ⟨htry.still.trans (still_end rfl), .of_quiet (end_quiet htry.barrier) (.inl ?_)⟩
    exact List.mem_append_right _ (List.mem_singleton.2 rfl)

theorem rests_issueTurn (env : IssueEnv) (w : ℕ) (rest : List ℕ) (hq : Quiet (s.rq r))
    (hb : Bare (s.rq r)) :
    Still (· = r) s (issueTurn c env w r rest s) ∧ RestsAt (issueTurn c env w r rest s) r := by
  have hoff : Still (· = r) s
      ((s.withLists fun l => { l with issues := Function.update l.issues w rest }).toHeld r) :=
    .elsewhere rfl rfl rfl rfl rfl rfl rfl
  have htry := rests_tryIssue (c := c) (s := (s.withLists fun l =>
    { l with issues := Function.update l.issues w rest }).toHeld r) env true hq hb
  unfold issueTurn
  dsimp only
  generalize
    (s.withLists fun l => { l with issues := Function.update l.issues w rest }).toHeld r = s₀ at *
  rcases hres : tryIssue c env true r s₀ with ⟨st, s₁⟩
  rw [hres] at htry
  have hstill := hoff.trans htry.still
  cases st with
  | ok => exact ⟨hstill, htry.placed rfl⟩
  | resource | devResource =>
    obtain ⟨hq₁, hb₁⟩ := htry.back (by simp)
    have hput := hstill.trans (still_bypass (r := r) false rest.isEmpty)
    have hrests := rests_bypass (r := r) false rest.isEmpty hq₁ hb₁
    dsimp only
    unfold giveBack
    split_ifs
    · exact ⟨hput, hrests⟩
    · refine ⟨hput.trans (.elsewhere rfl rfl rfl rfl rfl rfl rfl), .of_bare ?_ ?_⟩
      · exact (bypassInsert_rq (s := s₁) (r := r) false rest.isEmpty) ▸ hq₁
      · exact (bypassInsert_rq (s := s₁) (r := r) false rest.isEmpty) ▸ hb₁
  | ioerr =>
    refine ⟨hstill.trans (still_end rfl), .of_quiet (end_quiet htry.barrier) (.inl ?_)⟩
    exact List.mem_append_right _ (List.mem_singleton.2 rfl)

/-- The worker clears the flag before it lets a request go. -/
theorem rests_requeueTurn (hl : s.lists.requeuing = r :: rest) (hidle : (s.rq r).state = .idle)
    (hb : Bare (s.rq r)) :
    Still (· = r) s (requeueTurn r rest s) ∧ RestsAt (requeueTurn r rest s) r := by
  have hself : (s.setRq r fun rq => { rq with softbarrier := false }).rq r =
      { s.rq r with softbarrier := false } :=
    setRq_rq_self _
  have hclear : Still (· = r) s (s.setRq r fun rq => { rq with softbarrier := false }) :=
    still_setRq _ rfl
  have hoff : Still (· = r) (s.setRq r fun rq => { rq with softbarrier := false })
      (((s.setRq r fun rq => { rq with softbarrier := false }).withLists
        fun l => { l with requeuing := rest }).toHeld r) := by
    refine ⟨fun _ _ => rfl, fun _ _ => id, fun _ _ => id, fun x hx hq => ?_, fun _ _ => id⟩
    refine hq.imp id fun hmem => ?_
    have hmem' : x ∈ s.lists.requeuing := hmem
    rw [hl] at hmem'
    exact (List.mem_cons.1 hmem').resolve_left hx
  have hq : Quiet ((s.setRq r fun rq => { rq with softbarrier := false }).rq r) := by
    rw [hself]
    exact ⟨hidle, rfl⟩
  have hb' : Bare ((s.setRq r fun rq => { rq with softbarrier := false }).rq r) := by
    rw [hself]
    exact hb
  unfold requeueTurn
  dsimp only
  split_ifs
  · exact ⟨(hclear.trans hoff).trans (still_bypass _ _), rests_bypass _ _ hq hb'⟩
  · exact ⟨hclear.trans hoff, .of_bare hq hb'⟩

end Issue

section Steps

variable {c : MqConfig} {s s' : MqState}

theorem RestsAt.still (hs : ∀ r, RestsAt s r) (h : Still (fun _ => False) s s') :
    ∀ r, RestsAt s' r :=
  RestsAt.step hs h fun _ => False.elim

theorem ctxStep_rests {e : CtxEvent} (hs : ∀ r, RestsAt s r) (hstep : ctxStep c s e = some s') :
    ∀ r, RestsAt s' r := by
  refine RestsAt.still hs ?_
  cases e with
  | insertRequest | insertRequests =>
    simp only [ctxStep] at hstep
    split_ifs at hstep
    cases hstep
    exact .elsewhere rfl rfl rfl rfl rfl rfl rfl
  | bypassInsert r atHead runQueue =>
    simp only [ctxStep] at hstep
    split_ifs at hstep
    cases hstep
    exact still_bypass _ _
  | flushBusyCtx h bit =>
    obtain ⟨cpu, -, rfl⟩ := Option.map_eq_some_iff.1 hstep
    exact .elsewhere rfl rfl rfl rfl rfl rfl rfl
  | dispatchRqFromCtx h bit =>
    obtain ⟨cpu, -, rfl⟩ := Option.map_eq_some_iff.1 hstep
    split
    · exact .refl s
    · exact .elsewhere rfl rfl rfl rfl rfl rfl rfl
  | notifyDead h cpu =>
    simp only [ctxStep] at hstep
    split_ifs at hstep
    cases hstep
    unfold notifyDead
    dsimp only
    split_ifs
    · exact .refl s
    · exact .elsewhere rfl rfl rfl rfl rfl rfl rfl

theorem still_outside {w : ℕ} {T : ℕ → Prop} {call : DispatchCall} (hcall : s.calls w = some call)
    (hpc : call.pc ≠ .loop) (hrq : s'.rq = s.rq) (hd : s'.lists.driver = s.lists.driver)
    (he : s'.lists.ended = s.lists.ended) (hq : s'.lists.requeue = s.lists.requeue)
    (hqq : s'.lists.requeuing = s.lists.requeuing)
    (hl : ∀ x, x ≠ w → s'.lists.calls x = s.lists.calls x)
    (hc : ∀ x, x ≠ w → s'.calls x = s.calls x) : Still T s s' := by
  refine still_call (w := w) (fun call' _ _ hc' hpc' => ?_) hrq hd he hq hqq hl hc
  rw [hcall] at hc'
  cases hc'
  exact absurd hpc' hpc

theorem still_dispatchOut {w : ℕ} {T : ℕ → Prop} {call : DispatchCall}
    (hcall : s.calls w = some call) (hpc : call.pc = .out) :
    Still T s (dispatchOut c w call s) := by
  have hloop : call.pc ≠ .loop := by simp [hpc]
  unfold dispatchOut
  dsimp only
  generalize hs₁ : s.setFlags call.hctx _ = s₁
  have hcount : Still T s s₁ := hs₁ ▸ still_setFlags call.hctx _
  have hcall₁ : s₁.calls w = some call := by
    subst hs₁
    exact hcall
  split_ifs
  · refine hcount.trans ((still_updateDispatchBusy (c := c) call.hctx false).trans ?_)
    refine still_outside (w := w) ?_ hloop rfl rfl rfl rfl rfl (fun _ _ => rfl) fun _ hx =>
      Function.update_of_ne hx _ _
    unfold updateDispatchBusy
    split_ifs <;> exact hcall₁
  · refine hcount.trans (still_outside (w := w) hcall₁ hloop rfl rfl rfl rfl rfl ?_ ?_)
    · exact fun _ hx => Function.update_of_ne hx _ _
    · exact fun _ hx => Function.update_of_ne hx _ _

theorem still_dispatchRerun {w : ℕ} {T : ℕ → Prop} {call : DispatchCall}
    (hcall : s.calls w = some call) (hpc : call.pc = .rerun) :
    Still T s (dispatchRerun c w call s) := by
  have hloop : call.pc ≠ .loop := by simp [hpc]
  have hend : ∀ s₁ : MqState, Still T s s₁ → s₁.calls = s.calls →
      Still T s (setCall w none (s₁.updateDispatchBusy c call.hctx true)) := by
    intro s₁ hstill hcalls
    refine hstill.trans ((still_updateDispatchBusy (c := c) call.hctx true).trans ?_)
    refine still_outside (w := w) ?_ hloop rfl rfl rfl rfl rfl (fun _ _ => rfl) fun _ hx =>
      Function.update_of_ne hx _ _
    rw [← hcall, ← hcalls]
    unfold updateDispatchBusy
    split_ifs <;> rfl
  unfold dispatchRerun
  dsimp only
  split_ifs
  · exact hend _ (.elsewhere rfl rfl rfl rfl rfl rfl rfl) rfl
  · refine hend _ (still_delayRun true false call.hctx) ?_
    unfold delayRunHwQueue
    split_ifs <;> rfl
  · exact hend _ (.refl s) rfl

theorem callStep_rests {e : CallEvent} (hs : ∀ r, RestsAt s r) (hc : Custody s.lists)
    (hstep : callStep c s e = some s') :
    ∀ r, RestsAt s' r := by
  have hwaits : ∀ {p : Place} {r : ℕ}, r ∈ s.lists.on p → p = .held ∨ (∃ w, p = .issue w) →
      Quiet (s.rq r) ∧ Bare (s.rq r) := by
    rintro p r hr (rfl | ⟨w, rfl⟩)
    all_goals
      exact ⟨(hs r).quiet hc hr (by simp) (by simp) (by simp),
        (hs r).bare hc hr (by simp) (by simp) (NextUp.not_on hc hr (by simp))⟩
  cases e with
  | dispatchStart w l gotBudget =>
    simp only [callStep] at hstep
    split_ifs at hstep with hl
    cases hstep
    refine RestsAt.still hs
      (still_call (w := w) (fun call _ _ hcall => ?_) rfl rfl rfl rfl rfl ?_ ?_)
    · rw [hl.1] at hcall
      cases hcall
    · exact fun _ hx => Function.update_of_ne hx _ _
    · exact fun _ hx => Function.update_of_ne hx _ _
  | dispatchTurn w env =>
    simp only [callStep] at hstep
    split at hstep
    · next hcall hl =>
      split_ifs at hstep
      cases hstep
      obtain ⟨hstill, hrests⟩ :=
        rests_dispatchTurn (c := c) env _ hl (FrontRests.of_custody hs hc hl)
      exact RestsAt.step hs hstill hrests
    · cases hstep
  | dispatchOut w =>
    simp only [callStep] at hstep
    split at hstep
    · next hcall =>
      split_ifs at hstep with hpc
      cases hstep
      exact RestsAt.still hs (still_dispatchOut hcall hpc)
    · cases hstep
  | dispatchRerun w =>
    simp only [callStep] at hstep
    split at hstep
    · next hcall =>
      split_ifs at hstep with hpc
      cases hstep
      exact RestsAt.still hs (still_dispatchRerun hcall hpc)
    · cases hstep
  | tryIssueDirectly r env =>
    simp only [callStep] at hstep
    split_ifs at hstep with hr
    cases hstep
    obtain ⟨hq, hb⟩ := hwaits (p := .held) hr (.inl rfl)
    obtain ⟨hstill, hrests⟩ := rests_tryIssueDirectly (c := c) env hq hb
    exact RestsAt.step hs hstill fun x hx => hx ▸ hrests
  | issueStart w l =>
    simp only [callStep] at hstep
    split_ifs at hstep
    cases hstep
    exact RestsAt.still hs (.elsewhere rfl rfl rfl rfl rfl rfl rfl)
  | issueTurn w env =>
    simp only [callStep] at hstep
    split at hstep
    · next r rest hl =>
      cases hstep
      obtain ⟨hq, hb⟩ := hwaits (p := .issue w) (r := r) (by simp [MqLists.on, hl]) (.inr ⟨w, rfl⟩)
      obtain ⟨hstill, hrests⟩ := rests_issueTurn (c := c) env w rest hq hb
      exact RestsAt.step hs hstill fun x hx => hx ▸ hrests
    · cases hstep

theorem still_offDriver {r : ℕ} : Still (· = r) s (offDriver s r) where
  rq := fun _ _ => rfl
  driver := fun _ hx hd => (List.mem_erase_of_ne hx).2 hd
  ended := fun _ _ => id
  requeue := fun _ _ => id
  next := fun _ _ => id

theorem driverStep_rests {e : DriverEvent} (hs : ∀ r, RestsAt s r) (hc : Custody s.lists)
    (hstep : driverStep c s e = some s') : ∀ r, RestsAt s' r := by
  have hbarrier : ∀ {r : ℕ}, r ∈ s.lists.driver → (s.rq r).softbarrier = false :=
    fun {r} hr => (hs r).noBarrier (p := .driver) hc hr (by simp) (by simp)
  cases e with
  | complete r =>
    simp only [driverStep] at hstep
    split_ifs at hstep with hr
    cases hstep
    refine RestsAt.step hs (still_setRq _ rfl) fun x hx => ?_
    subst hx
    refine .of_driver ?_ hr
    rw [setRq_rq_self]
    exact hbarrier hr
  | endRequest r =>
    simp only [driverStep] at hstep
    split_ifs at hstep with hr
    cases hstep
    refine RestsAt.step hs (still_offDriver.trans (still_end rfl)) fun x hx => ?_
    subst hx
    refine .of_quiet (end_quiet (hbarrier hr)) (.inl ?_)
    exact List.mem_append_right _ (List.mem_singleton.2 rfl)
  | requeue r kick =>
    simp only [driverStep] at hstep
    split_ifs at hstep with hr
    cases hstep
    have hback : Still (· = r) (offDriver s r) ((offDriver s r).requeueRequest c r) :=
      still_requeueRequest rfl
    have hstill := still_offDriver.trans
      (hback.trans (still_requeueList (T := (· = r)) rfl true kick))
    refine RestsAt.step hs hstill fun x hx => ?_
    subst hx
    exact rests_requeueList true kick (requeue_quiet (hbarrier hr)) requeue_bare
  | addToRequeueList r atHead kick =>
    simp only [driverStep] at hstep
    split_ifs at hstep with hr
    cases hstep
    refine RestsAt.step hs (still_requeueList (T := (· = r)) rfl atHead kick) fun x hx => ?_
    subst hx
    exact rests_requeueList atHead kick
      ((hs x).quiet hc (p := .held) hr (by simp) (by simp) (by simp))
      ((hs x).bare hc (p := .held) hr (by simp) (by simp)
        (NextUp.not_on hc (p := .held) hr (by simp)))
  | requeueTake =>
    simp only [driverStep] at hstep
    split_ifs at hstep with htake
    cases hstep
    have hperm : (requeueOrder s.rq s.lists.requeue).Perm s.lists.requeue :=
      List.filter_append_perm _ _
    refine RestsAt.still hs
      ⟨fun _ _ => rfl, fun _ _ => id, fun _ _ => id, fun x _ hx => .inr ?_, fun _ _ => id⟩
    rcases hx with hx | hx
    · exact hperm.mem_iff.2 hx
    · rw [htake.2.2] at hx
      cases hx
  | requeueTurn =>
    simp only [driverStep] at hstep
    split at hstep
    · next r rest hl =>
      split_ifs at hstep
      cases hstep
      have hr : r ∈ s.lists.on .requeuing := by simp [MqLists.on, hl]
      obtain ⟨hstill, hrests⟩ := rests_requeueTurn hl ((hs r).idle hc hr (by simp))
        ((hs r).bare hc hr (by simp) (by simp) (NextUp.not_on hc hr (by simp)))
      exact RestsAt.step hs hstill fun x hx => hx ▸ hrests
    · cases hstep
  | requeueDone =>
    simp only [driverStep] at hstep
    split_ifs at hstep
    cases hstep
    exact RestsAt.still hs (.elsewhere rfl rfl rfl rfl rfl rfl rfl)

theorem runStep_rests {e : RunEvent} (hs : ∀ r, RestsAt s r) (hstep : runStep c s e = some s') :
    ∀ r, RestsAt s' r := by
  refine RestsAt.still hs ?_
  cases e with
  | run k here work =>
    obtain ⟨p, -, rfl⟩ := Option.map_eq_some_iff.1 hstep
    have herase : Still (fun _ => False) s { s with toRun := s.toRun.eraseIdx k } :=
      .elsewhere rfl rfl rfl rfl rfl rfl rfl
    unfold blkMqRunHwQueue
    split_ifs
    · exact herase.trans (still_delayRun _ _ _)
    · exact herase
  | runTakes h =>
    simp only [runStep] at hstep
    split_ifs at hstep
    all_goals
      cases hstep
      exact .elsewhere rfl rfl rfl rfl rfl rfl rfl
  | stopHwQueue | startHwQueue | quiesce | unquiesce | markRestart =>
    cases hstep
    exact .elsewhere rfl rfl rfl rfl rfl rfl rfl
  | callRun | runWork | startStoppedHwQueue | schedRestart | dispatchWake =>
    simp only [runStep] at hstep
    split_ifs at hstep <;> cases hstep <;> exact .elsewhere rfl rfl rfl rfl rfl rfl rfl

theorem fresh_rests (mqCtx mqHctx tag : ℕ) (dontprep : Bool) :
    Quiet (freshRequest c mqCtx mqHctx tag dontprep s) ∧
      Bare (freshRequest c mqCtx mqHctx tag dontprep s) := by
  refine ⟨⟨rfl, rfl⟩, ?_⟩
  unfold Bare freshRequest blkMqRqCtxInit
  dsimp only
  intro hi
  split_ifs at hi ⊢ <;> first | rfl | simp at hi

theorem mqStep_rests {e : MqEvent} (hs : ∀ r, RestsAt s r) (hc : Custody s.lists)
    (hstep : mqStep c s e = some s') :
    ∀ r, RestsAt s' r := by
  cases e with
  | getRequest mqCtx mqHctx tag dontprep =>
    simp only [mqStep] at hstep
    split_ifs at hstep
    cases hstep
    refine RestsAt.step (T := (· = s.lists.born)) hs ?_ fun x hx => ?_
    · exact ⟨fun x hx => Function.update_of_ne hx _ _, fun _ _ => id, fun _ _ => id, fun _ _ => id,
        fun _ _ => id⟩
    · subst hx
      obtain ⟨hq, hb⟩ := fresh_rests (c := c) (s := s) mqCtx mqHctx tag dontprep
      refine .of_bare ?_ ?_
      · simpa using hq
      · simpa using hb
  | ctx e => exact ctxStep_rests hs hstep
  | call e => exact callStep_rests hs hc hstep
  | driver e => exact driverStep_rests hs hc hstep
  | run e => exact runStep_rests hs hstep

end Steps

/-- Whatever a queue has gone through: only what the driver has may be started; a request with a tag
of a scheduler has one of the driver only there, or at the head of a dispatch in its loop, or when
it is done; and `blk_mq_add_to_requeue_list` never meets a request that has its flag already. -/
theorem waiting_requests_rest {c : MqConfig} {es : List MqEvent} {s : MqState}
    (hrun : (mqSystem c).Run es s) {p : Place} {r : ℕ} (hr : r ∈ s.lists.on p) :
    (p ≠ .driver → (s.rq r).state = .idle) ∧
      (p ≠ .driver → p ≠ .ended → (s.rq r).tags.internalTag.isSome → (s.rq r).tags.tag.isSome →
        ∃ w call rest, p = .call w ∧ s.calls w = some call ∧ call.pc = .loop ∧
          s.lists.calls w = r :: rest) ∧
      (p ≠ .requeue → p ≠ .requeuing → (s.rq r).softbarrier = false) := by
  have hinv : Custody s.lists ∧ ∀ r, RestsAt s r := by
    refine ⟨custody_run hrun, ?_⟩
    have hboth := hrun.invariant (I := fun s => Custody s.lists ∧ ∀ r, RestsAt s r) ?_ fun s e s' h
        _ hstep =>
      ⟨custody_step h.1 hstep, mqStep_rests h.2 h.1 hstep⟩
    · exact hboth.2
    · exact ⟨custody_run .nil, fun r => .of_bare ⟨rfl, rfl⟩ fun hi => (by cases hi)⟩
  obtain ⟨hc, hs⟩ := hinv
  refine ⟨(hs r).idle hc hr, fun hd he hi ht => ?_, (hs r).noBarrier hc hr⟩
  rcases (hs r).tagged hi ht with h | h | h
  · have hdriver : r ∈ s.lists.on .driver := h
    exact absurd (hc.once hr hdriver) hd
  · have hended : r ∈ s.lists.on .ended := h
    exact absurd (hc.once hr hended) he
  · obtain ⟨w, call, rest, hcall, hpc, hl⟩ := h
    have hw : r ∈ s.lists.on (.call w) := by simp [MqLists.on, hl]
    exact ⟨w, call, rest, hc.once hr hw, hcall, hpc, hl⟩

def scheduled : MqConfig := { oneQueue with elevator := true, tagShared := fun _ => true }

/-- The second request has its tag already when the driver refuses the first. -/
def refused : List MqEvent :=
  [.getRequest 0 0 1 false, .getRequest 0 0 2 false, .call (.dispatchStart 0 [0, 1] false),
    .call (.dispatchTurn 0 ⟨true, some 7, none, some 8, true, .resource⟩), .call (.dispatchOut 0)]

theorem waiting_requests_rest_refused :
    ∃ s, (mqSystem scheduled).Run refused s ∧ s.lists.on (.dispatch 0) = [0, 1] ∧
      ∀ r ∈ s.lists.on (.dispatch 0), (s.rq r).state = .idle ∧ (s.rq r).softbarrier = false := by
  obtain ⟨s, hrun, hlist⟩ := @Runs.System.exists_runIn_of_execIn _ _ (mqSystem scheduled)
    (fun _ _ => True) _ (fun s => s.lists.on (.dispatch 0) = [0, 1]) _ refused (by decide +kernel)
  refine ⟨s, hrun, hlist, fun r hr => ?_⟩
  have hrest := waiting_requests_rest hrun hr
  exact ⟨hrest.1 (by simp), hrest.2.2 (by simp) (by simp)⟩

end BlkSwitch.Blk
