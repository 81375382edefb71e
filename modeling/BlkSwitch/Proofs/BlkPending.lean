import BlkSwitch.Proofs.BlkSwqueue
import BlkSwitch.Sanity.BlkHomes

/-! A request on a software queue stays visible to its hardware queue: as long as there is something
on a list, its bit is set, and a flush takes it. The handler for a CPU that goes away has to be that
of a hardware queue of the CPU; any other one clears the bit of someone else. -/

namespace BlkSwitch.Blk

open MqState

/-- A hardware queue that the software queue of a CPU maps to. -/
def OwnQueue (n : ℕ) (q : SwQueues) (h cpu : ℕ) : Prop :=
  cpu < n ∧ ∃ t ∈ HctxType.all, (q.ctx cpu).hctxs t = h

instance (n : ℕ) (q : SwQueues) (h cpu : ℕ) : Decidable (OwnQueue n q h cpu) :=
  inferInstanceAs (Decidable (_ ∧ _))

/-- The bit by which hardware queue `h` knows the software queue of `cpu`. -/
def bitOf (q : SwQueues) (h cpu : ℕ) : ℕ := (q.ctx cpu).indexHw (q.hctx h).type

/-- Tables by which hardware queues find their software queues, and a list has one hardware
queue. -/
structure SoundTables (n : ℕ) (q : SwQueues) : Prop where
  finds : ∀ h cpu, OwnQueue n q h cpu → Finds q h cpu
  unique : ∀ h h' cpu, OwnQueue n q h cpu → OwnQueue n q h' cpu →
    (q.hctx h).type = (q.hctx h').type → h = h'

section BitsSet

variable {n : ℕ} {q : SwQueues} {sw : SwLists} {h cpu : ℕ}

theorem SoundTables.bit_inj (hq : SoundTables n q) {cpu' : ℕ} (hown : OwnQueue n q h cpu)
    (hown' : OwnQueue n q h cpu') (hbit : bitOf q h cpu' = bitOf q h cpu) : cpu' = cpu := by
  have hfind := hq.finds h cpu hown
  have hfind' := hq.finds h cpu' hown'
  unfold Finds at hfind hfind'
  unfold bitOf at hbit
  rw [hbit, hfind] at hfind'
  exact (Option.some.inj hfind').symm

/-- A bit that is set stands for a software queue. -/
structure OwnBits (n : ℕ) (q : SwQueues) (sw : SwLists) : Prop where
  own : ∀ h, ∀ b ∈ sw.ctxMap h, ∃ cpu, OwnQueue n q h cpu ∧ bitOf q h cpu = b
  once : ∀ h, (sw.ctxMap h).Nodup

theorem OwnBits.insert (hm : OwnBits n q sw) (hown : OwnQueue n q h cpu) (l : List ℕ)
    (atHead : Bool) :
    OwnBits n q (swInsert q h cpu l atHead sw) := by
  constructor <;> intro h' <;> simp only [swInsert] <;> split_ifs with hin
  · exact hm.own h'
  · by_cases hh : h' = h
    · subst hh
      rw [Function.update_self]
      intro b hb
      rcases List.mem_cons.1 hb with rfl | hb
      · exact ⟨cpu, hown, rfl⟩
      · exact hm.own h' b hb
    · rw [Function.update_of_ne hh]
      exact hm.own h'
  · exact hm.once h'
  · by_cases hh : h' = h
    · subst hh
      rw [Function.update_self]
      exact List.nodup_cons.2 ⟨hin, hm.once h'⟩
    · rw [Function.update_of_ne hh]
      exact hm.once h'

theorem OwnBits.leave (hm : OwnBits n q sw) (bit : ℕ) (left : List ℕ) :
    OwnBits n q (swLeave q h cpu bit left sw) := by
  constructor <;> intro h' <;> simp only [swLeave] <;> split_ifs
  · by_cases hh : h' = h
    · subst hh
      rw [Function.update_self]
      exact fun b hb => hm.own h' b (List.mem_of_mem_erase hb)
    · rw [Function.update_of_ne hh]
      exact hm.own h'
  · exact hm.own h'
  · by_cases hh : h' = h
    · subst hh
      rw [Function.update_self]
      exact (hm.once h').erase bit
    · rw [Function.update_of_ne hh]
      exact hm.once h'
  · exact hm.once h'

/-- A software queue whose bit is not set is passed over by every flush. -/
theorem OwnBits.flush_misses (hm : OwnBits n q sw) (hq : SoundTables n q)
    (hown : OwnQueue n q h cpu) (hbit : bitOf q h cpu ∉ sw.ctxMap h) (hw : ℕ) :
    (blkMqFlushBusyCtxs q hw sw).2.rqLists cpu (q.hctx h).type = sw.rqLists cpu
      (q.hctx h).type := by
  have hmiss : ∀ b ∈ sw.ctxMap hw, (q.hctx hw).ctxs[b]? = some cpu →
      (q.hctx h).type ≠ (q.hctx hw).type := by
    intro b hb hcpu htype
    obtain ⟨cpu', hown', rfl⟩ := hm.own hw b hb
    have hfind := hq.finds hw cpu' hown'
    unfold Finds at hfind
    unfold bitOf at hcpu
    rw [hfind] at hcpu
    obtain rfl := Option.some.inj hcpu
    obtain rfl := hq.unique h hw cpu' hown hown' htype
    exact hbit hb
  -- over the bits that are still to come, with what has been taken so far
  have hfold : ∀ (bits : List ℕ) (r : List ℕ × SwLists), (∀ b ∈ bits, b ∈ sw.ctxMap hw) →
      (bits.foldl (flushBits q hw) r).2.rqLists cpu (q.hctx h).type = r.2.rqLists cpu
        (q.hctx h).type := by
    intro bits
    induction bits with
    | nil => exact fun _ _ => rfl
    | cons b bits ih =>
      intro r hbits
      rw [List.foldl_cons, ih _ fun b' hb' => hbits b' (List.mem_cons_of_mem b hb')]
      unfold flushBits flushBusyCtx
      cases hcpu : (q.hctx hw).ctxs[b]? with
      | none => rfl
      | some cpu' =>
        by_cases heq : cpu = cpu'
        · subst heq
          have hne := hmiss b (hbits b List.mem_cons_self) hcpu
          simp [Function.update_of_ne hne]
        · simp [Function.update_of_ne heq]
  exact hfold _ _ fun _ hb => hb

/-- What is on a list has a hardware queue, and its bit is set there. -/
structure BitsSet (n : ℕ) (q : SwQueues) (sw : SwLists) : Prop extends OwnBits n q sw where
  owner : ∀ cpu t, sw.rqLists cpu t ≠ [] → ∃ h, OwnQueue n q h cpu ∧ (q.hctx h).type = t
  bit : ∀ h cpu, OwnQueue n q h cpu → sw.rqLists cpu (q.hctx h).type ≠ [] →
    bitOf q h cpu ∈ sw.ctxMap h

theorem BitsSet.insert (hm : BitsSet n q sw) (hq : SoundTables n q) (hown : OwnQueue n q h cpu)
    (l : List ℕ) (atHead : Bool) :
    BitsSet n q (swInsert q h cpu l atHead sw) := by
  have hkeep : ∀ h' b, b ∈ sw.ctxMap h' → b ∈ (swInsert q h cpu l atHead sw).ctxMap h' := by
    intro h' b hb
    simp only [swInsert]
    split_ifs
    · exact hb
    · by_cases hh : h' = h
      · subst hh
        rw [Function.update_self]
        exact List.mem_cons_of_mem _ hb
      · rwa [Function.update_of_ne hh]
  have hset : bitOf q h cpu ∈ (swInsert q h cpu l atHead sw).ctxMap h := by
    simp only [swInsert]
    split_ifs with hin
    · exact hin
    · rw [Function.update_self]
      exact List.mem_cons_self
  refine ⟨hm.toOwnBits.insert hown l atHead, ?_, ?_⟩
  · intro cpu' t hne
    simp only [swInsert, update_twice] at hne
    split_ifs at hne with heq
    · exact ⟨h, heq.1 ▸ hown, heq.2.symm⟩
    · exact ⟨h, heq.1 ▸ hown, heq.2.symm⟩
    · exact hm.owner cpu' t hne
  · intro h' cpu' hown' hne
    by_cases heq : cpu' = cpu ∧ (q.hctx h').type = (q.hctx h).type
    · -- the list that was inserted to has this hardware queue only
      obtain ⟨rfl, htype⟩ := heq
      obtain rfl := hq.unique h' h cpu' hown' hown htype
      exact hset
    · simp only [swInsert, update_twice, if_neg heq] at hne
      exact hkeep h' _ (hm.bit h' cpu' hown' hne)

/-- A software queue is left with a part of its list, and if that is empty, no bit is cleared but
its own. -/
theorem BitsSet.leave (hm : BitsSet n q sw) {bit : ℕ} {left : List ℕ}
    (hbit : ∀ cpu', OwnQueue n q h cpu' → bitOf q h cpu' = bit → cpu' = cpu)
    (hleft : left ≠ [] → sw.rqLists cpu (q.hctx h).type ≠ []) :
    BitsSet n q (swLeave q h cpu bit left sw) := by
  refine ⟨hm.toOwnBits.leave bit left, ?_, ?_⟩
  · intro cpu' t hne
    simp only [swLeave, update_twice] at hne
    split_ifs at hne with heq
    · exact heq.1 ▸ heq.2 ▸ hm.owner _ _ (hleft hne)
    · exact hm.owner cpu' t hne
  · intro h' cpu' hown' hne
    simp only [swLeave, update_twice] at hne ⊢
    split_ifs at hne with heq
    · rw [if_neg hne]
      refine hm.bit h' cpu' hown' ?_
      rw [heq.1, heq.2]
      exact hleft hne
    · have hold := hm.bit h' cpu' hown' hne
      split_ifs
      · by_cases hh : h' = h
        · subst hh
          rw [Function.update_self]
          refine (List.mem_erase_of_ne fun hsame => heq ?_).2 hold
          exact ⟨hbit cpu' hown' hsame, rfl⟩
        · rwa [Function.update_of_ne hh]
      · exact hold

end BitsSet

/-- Requests are for a hardware queue of their software queue, and so are lists of them; the handler
for a CPU that goes away is that of one of its hardware queues. -/
def OwnQueues (n : ℕ) (q : SwQueues) (_ : MqState) : MqEvent → Prop
  | .getRequest mqCtx mqHctx _ _ => OwnQueue n q mqHctx mqCtx
  | .ctx (.insertRequests h cpu _) => OwnQueue n q h cpu
  | .ctx (.notifyDead h cpu) => OwnQueue n q h cpu
  | _ => True

instance (n : ℕ) (q : SwQueues) : ∀ (s : MqState) (e : MqEvent), Decidable (OwnQueues n q s e)
  | _, .getRequest mqCtx mqHctx _ _ => inferInstanceAs (Decidable (OwnQueue n q mqHctx mqCtx))
  | _, .call _ | _, .driver _ | _, .run _ => .isTrue trivial
  | _, .ctx (.insertRequest ..) | _, .ctx (.bypassInsert ..) | _, .ctx (.flushBusyCtx ..)
  | _, .ctx (.dispatchRqFromCtx ..) => .isTrue trivial
  | _, .ctx (.insertRequests h cpu _) => inferInstanceAs (Decidable (OwnQueue n q h cpu))
  | _, .ctx (.notifyDead h cpu) => inferInstanceAs (Decidable (OwnQueue n q h cpu))

section Steps

variable {n : ℕ} {c : MqConfig} {s s' : MqState}

structure Visible (n : ℕ) (c : MqConfig) (s : MqState) : Prop where
  custody : Custody s.lists
  homes : ∀ r < s.lists.born, OwnQueue n c.queues (s.home r).mqHctx (s.home r).mqCtx
  bits : BitsSet n c.queues s.lists.sw

theorem ctxStep_bits {e : CtxEvent} (hq : SoundTables n c.queues) (hs : Visible n c s)
    (hok : OwnQueues n c.queues s (.ctx e)) (hstep : ctxStep c s e = some s') :
    BitsSet n c.queues s'.lists.sw := by
  have hplace : ∀ {h bit cpu : ℕ}, (c.queues.hctx h).ctxs[bit]? = some cpu →
      ∀ cpu', OwnQueue n c.queues h cpu' → bitOf c.queues h cpu' = bit → cpu' = cpu := by
    intro h bit cpu hcpu cpu' hown hbit
    have hfind := hq.finds h cpu' hown
    unfold Finds at hfind
    unfold bitOf at hbit
    rw [hbit, hcpu] at hfind
    exact (Option.some.inj hfind).symm
  cases e with
  | insertRequest r atHead =>
    simp only [ctxStep] at hstep
    split_ifs at hstep with hr
    cases hstep
    exact hs.bits.insert hq (hs.homes r ((hs.custody.all r).2 ⟨.held, hr⟩)) _ _
  | insertRequests h cpu l =>
    simp only [ctxStep] at hstep
    split_ifs at hstep
    cases hstep
    exact hs.bits.insert hq hok _ _
  | bypassInsert r atHead runQueue =>
    simp only [ctxStep] at hstep
    split_ifs at hstep
    cases hstep
    rw [(aside_bypass s r atHead runQueue).sw]
    exact hs.bits
  | flushBusyCtx h bit =>
    obtain ⟨cpu, hcpu, rfl⟩ := Option.map_eq_some_iff.1 hstep
    exact hs.bits.leave (hplace hcpu) fun hne => absurd rfl hne
  | dispatchRqFromCtx h bit =>
    obtain ⟨cpu, hcpu, rfl⟩ := Option.map_eq_some_iff.1 hstep
    split
    · exact hs.bits
    · next hl =>
      refine hs.bits.leave (hplace hcpu) fun _ => ?_
      rw [hl]
      exact List.cons_ne_nil _ _
  | notifyDead h cpu =>
    simp only [ctxStep] at hstep
    split_ifs at hstep
    cases hstep
    unfold notifyDead
    dsimp only
    split_ifs
    · exact hs.bits
    · exact hs.bits.leave (fun cpu' hown hbit => hq.bit_inj hok hown hbit) fun hne => absurd rfl hne

theorem mqStep_visible {e : MqEvent} (hq : SoundTables n c.queues) (hs : Visible n c s)
    (hok : OwnQueues n c.queues s e) (hstep : mqStep c s e = some s') : Visible n c s' := by
  have hsame : Shift s.lists s'.lists → s'.home = s.home →
      ∀ r < s'.lists.born, OwnQueue n c.queues (s'.home r).mqHctx (s'.home r).mqCtx := by
    intro hshift hhome r hr
    rw [hhome]
    exact hs.homes r (hshift.born ▸ hr)
  have hcustody := custody_step hs.custody hstep
  cases e with
  | getRequest mqCtx mqHctx tag dontprep =>
    simp only [mqStep] at hstep
    split_ifs at hstep
    cases hstep
    refine ⟨hcustody, fun r hr => ?_, hs.bits⟩
    by_cases hnew : r = s.lists.born
    · subst hnew
      simp only [home, MqState.hctxOf, Function.update_self, freshRequest_home]
      exact hok
    · simp only [home, MqState.hctxOf, Function.update_of_ne hnew]
      exact hs.homes r (Nat.lt_of_le_of_ne (Nat.lt_succ_iff.1 hr) hnew)
  | ctx e => exact ⟨hcustody, hsame (ctxStep_shift hstep) (ctxStep_home hstep),
    ctxStep_bits hq hs hok hstep⟩
  | call e =>
    have haside := callStep_aside hstep
    exact ⟨hcustody, hsame (callStep_shift hstep) haside.home, haside.sw ▸ hs.bits⟩
  | driver e =>
    have haside := driverStep_aside hstep
    exact ⟨hcustody, hsame (driverStep_shift hstep) haside.home, haside.sw ▸ hs.bits⟩
  | run e =>
    have haside := runStep_aside hstep
    exact ⟨hcustody, hsame (runStep_shift hstep) haside.home, haside.sw ▸ hs.bits⟩

theorem visible_run {es : List MqEvent} (hq : SoundTables n c.queues)
    (hrun : (mqSystem c).RunIn (OwnQueues n c.queues) es s) : Visible n c s := by
  refine hrun.invariant (I := Visible n c) ?_ fun _ _ _ hs hok hstep =>
    mqStep_visible hq hs hok hstep
  have hown : OwnBits n c.queues (mqSystem c).init.lists.sw :=
    ⟨fun _ _ hb => absurd hb List.not_mem_nil, fun _ => List.nodup_nil⟩
  refine ⟨custody_run .nil, fun r hr => absurd hr (Nat.not_lt_zero r), hown, fun cpu t hne => ?_,
    fun h cpu _ hne => ?_⟩
  · exact absurd rfl hne
  · exact absurd rfl hne

/-- A hardware queue of its software queue knows of a request and takes it with the next flush. -/
theorem Visible.found (hq : SoundTables n c.queues) (hs : Visible n c s) {cpu r : ℕ} {t : HctxType}
    (hr : r ∈ s.lists.sw.rqLists cpu t) :
    ∃ h, OwnQueue n c.queues h cpu ∧ (c.queues.hctx h).type = t ∧ s.hasPending false h = true ∧
      r ∈ (blkMqFlushBusyCtxs c.queues h s.lists.sw).1 := by
  obtain ⟨h, hown, rfl⟩ := hs.bits.owner cpu t (List.ne_nil_of_mem hr)
  have hbit := hs.bits.bit h cpu hown (List.ne_nil_of_mem hr)
  refine ⟨h, hown, rfl, ?_, flush_finds (hq.finds h cpu hown) hbit (.inr hr)⟩
  have hmap : (s.lists.sw.ctxMap h).isEmpty = false := by
    rw [List.isEmpty_eq_false_iff]
    exact List.ne_nil_of_mem hbit
  simp [hasPending, hmap]

end Steps

section Dead

variable {n : ℕ} {c : MqConfig} {es : List MqEvent} {s : MqState} {h h' cpu cpu' : ℕ}

/-- `blk_mq_hctx_notify_dead` does not ask if the CPU is one of its hardware queue's. In every state
of a run the handler of another queue of the same type takes the requests of the CPU to its own
dispatch list and clears a bit that stands for another software queue, the requests of which no
hardware queue takes any more. -/
theorem foreign_notify_dead_strands (hq : SoundTables n c.queues)
    (hrun : (mqSystem c).RunIn (OwnQueues n c.queues) es s) (hown : OwnQueue n c.queues h cpu)
    (hown' : OwnQueue n c.queues h' cpu') (hne : h ≠ h')
    (htype : (c.queues.hctx h).type = (c.queues.hctx h').type)
    (hbit : bitOf c.queues h cpu = bitOf c.queues h' cpu') (hh' : h' < c.nrHwQueues)
    (hsome : s.lists.sw.rqLists cpu (c.queues.hctx h').type ≠ []) :
    ∃ s', (mqSystem c).step s (.ctx (.notifyDead h' cpu)) = some s' ∧ ¬ OwnQueue n c.queues h' cpu ∧
      s'.lists.dispatch h' = s.lists.dispatch h' ++ s.lists.sw.rqLists cpu (c.queues.hctx h').type ∧
      s'.lists.sw.rqLists cpu' (c.queues.hctx h').type = s.lists.sw.rqLists cpu'
      (c.queues.hctx h').type ∧ ∀ hw,
      (blkMqFlushBusyCtxs c.queues hw s'.lists.sw).2.rqLists cpu' (c.queues.hctx h').type =
        s'.lists.sw.rqLists cpu' (c.queues.hctx h').type := by
  have hbits := (visible_run hq hrun).bits
  have hforeign : ¬ OwnQueue n c.queues h' cpu :=
    fun hmine => hne (hq.unique h h' cpu hown hmine htype)
  have hcpu : cpu' ≠ cpu := by
    rintro rfl
    exact hforeign hown'
  have hsame : bitOf c.queues h' cpu = bitOf c.queues h' cpu' := by
    rw [← hbit]
    unfold bitOf
    rw [htype]
  have hstep : (mqSystem c).step s (.ctx (.notifyDead h' cpu)) = some (notifyDead c s h' cpu) :=
    if_pos hh'
  have hlists : (notifyDead c s h' cpu).lists =
      { s.lists with
        sw := swLeave c.queues h' cpu (bitOf c.queues h' cpu) [] s.lists.sw
        dispatch := Function.update s.lists.dispatch h'
          (s.lists.dispatch h' ++ s.lists.sw.rqLists cpu (c.queues.hctx h').type) } := by
    unfold notifyDead
    dsimp only
    rw [if_neg hsome]
    rfl
  refine ⟨_, hstep, hforeign, ?_, ?_, fun hw => ?_⟩ <;> rw [hlists]
  · exact Function.update_self ..
  · simp only [swLeave, Function.update_of_ne hcpu]
  · refine (hbits.toOwnBits.leave _ []).flush_misses hq hown' ?_ hw
    simp only [swLeave, if_true, Function.update_self, hsame]
    exact (hbits.once h').not_mem_erase

end Dead

section Tables

variable {set : QueueMaps} {n d e : ℕ} {q : SwQueues}

theorem Layout.sound (hl : Layout set n d e) (hq : Filled set n q)
    (hpoll : set.nrMaps = 3 → ∀ cpu < n, d ≤ set.mqMap .poll cpu ∧ e ≤ set.mqMap .poll cpu) :
    SoundTables n q := by
  have hagree : ∀ h, Agree set n h := by
    intro h
    refine hl.agree fun hm cpu hcpu => ?_
    by_cases heq : set.mqMap .poll cpu = h
    · exact .inr (heq ▸ hpoll hm cpu hcpu)
    · exact .inl heq
  have hreached : ∀ h cpu, OwnQueue n q h cpu → reached set h cpu = true := by
    rintro h cpu ⟨hcpu, t, -, rfl⟩
    rw [hq.hctxs cpu hcpu]
    exact reached_hctxOf hl cpu t
  -- a queue of the CPU is where the map of its type sends the CPU
  have hmap : ∀ h cpu, OwnQueue n q h cpu → set.mqMap (q.hctx h).type cpu = h := by
    intro h cpu hown
    obtain ⟨t, ht⟩ := Option.isSome_iff_exists.1 (hreached h cpu hown)
    have hsame : ∀ cpu' < n, reached set h cpu' = true → firstType set cpu' h = some t := by
      intro cpu' hcpu' hr'
      obtain ⟨t', ht'⟩ := Option.isSome_iff_exists.1 hr'
      rw [ht', hagree h cpu hown.1 cpu' hcpu' t t' ht ht']
    rw [hq.type, typeAfter_eq hsame hown.1 (hreached h cpu hown)]
    exact mqMap_firstType ht
  refine ⟨fun h cpu hown => hq.finds_of_agree (hagree h) hown.1 (hreached h cpu hown), ?_⟩
  intro h h' cpu hown hown' htype
  rw [← hmap h cpu hown, htype, hmap h' cpu hown']

end Tables

end BlkSwitch.Blk

namespace BlkSwitch.Host

open Blk

section FirstConnect

variable {o : CtrlOptions} {ctrl : Ctrl} {granted n : ℕ} {map : ℕ → ℕ → ℕ → ℕ}

/-- Unless polling is asked for and has to do without queues of its own, a first connect makes such
tables. -/
theorem firstConnect_sound
    (hstep : (connectSystem o).step (connectSystem o).init granted = some ctrl)
    (hmap : MapsInto map n o ctrl)
    (hpoll : o.nrPollQueues = 0 ∨ dedicated o ctrl.ioQueues .poll = true) :
    SoundTables n (mapSwqueue (tagSet o ctrl map) n) := by
  rcases Nat.eq_zero_or_pos n with rfl | hn
  · exact ⟨fun _ cpu hown => absurd hown.1 (Nat.not_lt_zero cpu),
      fun _ _ cpu hown => absurd hown.1 (Nat.not_lt_zero cpu)⟩
  refine (firstConnect_layout hstep hmap hn).sound (mapSwqueue_filled _ n) fun hm cpu hcpu => ?_
  have hded : dedicated o ctrl.ioQueues .poll = true := by
    rcases hpoll with hnone | hded
    · simp [tagSet, hnone] at hm
    · exact hded
  have hin := (hmap .poll (fun _ => hded) cpu hcpu).1
  have hoff : (ctrl.map .poll).queueOffset = ctrl.ioQueues .default + ctrl.ioQueues .read := by
    rw [(firstConnect_eq hstep).2]
    simp [nvmeTcpMapQueues, hded]
  rw [tagSet_mqMap fun _ => hded]
  rw [hoff] at hin ⊢
  exact ⟨(Nat.le_add_right _ _).trans hin, hin⟩

/-- After a first connect that gives polling its own queues or none, whatever is inserted, flushed,
taken one by one or moved from a CPU that goes away: a request that is on the list of a software
queue is visible to a hardware queue of it, which takes it with its next flush. -/
theorem software_requests_found
    (hstep : (connectSystem o).step (connectSystem o).init granted = some ctrl)
    (hmap : MapsInto map n o ctrl)
    (hpoll : o.nrPollQueues = 0 ∨ dedicated o ctrl.ioQueues .poll = true) {c : MqConfig}
    (hq : c.queues = mapSwqueue (tagSet o ctrl map) n) {es : List MqEvent} {s : MqState}
    (hrun : (mqSystem c).RunIn (OwnQueues n c.queues) es s) {cpu r : ℕ} {t : HctxType}
    (hr : r ∈ s.lists.sw.rqLists cpu t) :
    ∃ h, OwnQueue n c.queues h cpu ∧ (c.queues.hctx h).type = t ∧ s.hasPending false h = true ∧
      r ∈ (blkMqFlushBusyCtxs c.queues h s.lists.sw).1 := by
  have hsound : SoundTables n c.queues := hq ▸ firstConnect_sound hstep hmap hpoll
  exact (visible_run hsound hrun).found hsound hr

section Sample

def plainOptions : CtrlOptions := ⟨2, 0, 0, 2⟩

theorem plainOptions_mapsInto : MapsInto spread 2 plainOptions (firstCtrl plainOptions 2) := by
  intro t ht cpu hcpu
  cases t with
  | poll => exact absurd (ht rfl) (by decide)
  | default => interval_cases cpu <;> decide
  | read => interval_cases cpu <;> decide

theorem plainOptions_connects :
    (connectSystem plainOptions).step (connectSystem plainOptions).init 2 = some
      (firstCtrl plainOptions 2) := rfl

def plainQueue : MqConfig where
  nrHwQueues := 2
  pos := Nat.two_pos
  queues := mapSwqueue (tagSet plainOptions (firstCtrl plainOptions 2) spread) 2
  elevator := false
  blocking := false
  tagShared := fun _ => false

theorem plainQueue_sound : SoundTables 2 plainQueue.queues := 
  firstConnect_sound plainOptions_connects plainOptions_mapsInto (.inl rfl)

def oneEach : List MqEvent :=
  [.getRequest 0 0 0 false, .getRequest 1 1 1 false, .ctx (.insertRequest 0 false),
    .ctx (.insertRequest 1 false)]

def oneLeft : List MqEvent := oneEach ++ [.ctx (.flushBusyCtx 0 0)]

theorem software_requests_found_left :
    ∃ s, (mqSystem plainQueue).RunIn (OwnQueues 2 plainQueue.queues) oneLeft s ∧
      1 ∈ s.lists.sw.rqLists 1 .default ∧ ∃ h, s.hasPending false h = true ∧
      1 ∈ (blkMqFlushBusyCtxs plainQueue.queues h s.lists.sw).1 := by
  obtain ⟨s, hrun, hlist⟩ := @Runs.System.exists_runIn_of_execIn _ _ (mqSystem plainQueue)
    (OwnQueues 2 plainQueue.queues) _ (fun s => 1 ∈ s.lists.sw.rqLists 1 .default) _ oneLeft
      (by decide +kernel)
  obtain ⟨h, -, -, hpending, hflush⟩ :=
    software_requests_found plainOptions_connects plainOptions_mapsInto (.inl rfl) rfl hrun hlist
  exact ⟨s, hrun, hlist, h, hpending, hflush⟩

/-- CPU 0 goes away, and queue 1 hears of it. -/
theorem foreign_notify_dead_strands_plain :
    ∃ s s', (mqSystem plainQueue).RunIn (OwnQueues 2 plainQueue.queues) oneEach s ∧
      (mqSystem plainQueue).step s (.ctx (.notifyDead 1 0)) = some s' ∧ s'.lists.dispatch 1 = [0] ∧
      ∀ hw, (blkMqFlushBusyCtxs plainQueue.queues hw s'.lists.sw).2.rqLists 1 .default = [1] := by
  have hown : OwnQueue 2 plainQueue.queues 0 0 := by decide
  have hown' : OwnQueue 2 plainQueue.queues 1 1 := by decide
  obtain ⟨s, hrun, hd, hzero, hone⟩ := @Runs.System.exists_runIn_of_execIn _ _ (mqSystem plainQueue)
    (OwnQueues 2 plainQueue.queues) _
      (fun s => s.lists.dispatch 1 = [] ∧ s.lists.sw.rqLists 0 .default = [0] ∧
      s.lists.sw.rqLists 1 .default = [1]) _ oneEach (by decide +kernel)
  have htype : (plainQueue.queues.hctx 1).type = .default := by decide
  obtain ⟨s', hstep, -, hdispatch, hlist, hflush⟩ :=
    foreign_notify_dead_strands plainQueue_sound hrun hown hown'
    (by decide) (by decide) (by decide) (by decide)
      (by rw [htype, hzero]; exact List.cons_ne_nil _ _)
  rw [htype, hzero, hd] at hdispatch
  rw [htype, hone] at hlist
  rw [htype, hlist] at hflush
  exact ⟨s, s', hrun, hstep, hdispatch, hflush⟩

end Sample

end FirstConnect

end BlkSwitch.Host
