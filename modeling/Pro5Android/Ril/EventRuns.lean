import Pro5Android.Ril.EventLoop

/-!
# Runs of the event loop

Every step of the loop and of its clients preserves `Inv`.

* `runs_safe`: no run goes through a null pointer or into an endless walk, and the lists
  and the table stay consistent.
* `timers_in_order`: over a whole run every timer is called once, after its deadline, and
  the timers are called in the order of their deadlines.
* `no_lost_wakeup`: while the loop waits, it waits for all that is there, or is about to
  be woken.
* `ready_called`: of what is ready, every callback is called once before the next turn.
-/

namespace Pro5Android.Ril

open Lib (Links Circle)

variable {s s' : State} {wakeFd : ℤ} {timers pending : List Addr} {a : Addr}

/-! ## Steps of the clients -/

theorem entries_congr {m m' : Memory} {l : List Addr}
    (h : ∀ a ∈ l, (m'.event a).timeout = (m.event a).timeout) : entries m' l = entries m l :=
  List.map_congr_left fun a ha => by rw [h a ha]

theorem past_congr (hcalled : s'.called = s.called)
    (h : ∀ a ∈ pending, (s'.memory.event a).fd = (s.memory.event a).fd ∧
      (s'.memory.event a).timeout = (s.memory.event a).timeout) :
    s'.past pending = s.past pending := by
  have hfilter : (pending.filter fun a => (s'.memory.event a).fd = -1) =
      pending.filter fun a => (s.memory.event a).fd = -1 :=
    List.filter_congr fun a ha => by rw [(h a ha).1]
  rw [State.past, State.past, hcalled, hfilter]
  congr 1
  exact entries_congr fun a ha => (h a (List.mem_of_mem_filter ha)).2

theorem PendingInv.congr {m m' : Memory} {turn : Turn} (h : PendingInv m pending turn)
    (hfd : ∀ a ∈ pending, (m'.event a).fd = (m.event a).fd) : PendingInv m' pending turn := by
  cases turn with
  | expired ready =>
    intro a ha
    rw [hfd a ha]
    exact h a ha
  | _ => exact h

theorem calcNextTimeout_congr {m m' : Memory} {since : Timeval}
    (h : ∀ a ∈ timers, (m'.event a).timeout = (m.event a).timeout) :
    calcNextTimeout m' (timers.head?.getD .timerList) since =
      calcNextTimeout m (timers.head?.getD .timerList) since := by
  cases timers with
  | nil => rfl
  | cons a timers =>
    show calcNextTimeout m' a since = calcNextTimeout m a since
    rw [calcNextTimeout, calcNextTimeout, h a List.mem_cons_self]

/-- What the loop has read stays up to date when nothing comes that it did not see, or the
    client is going to wake it. -/
theorem Awake.mono {timers' : List Addr} {turn : Turn} (h : Awake s wakeFd timers turn)
    (hnow : s.now ≤ s'.now) (hnotified : Notified s → Notified s')
    (hsame : Notified s' ∨
      (∀ i a, s'.memory.watchTable i = some a → s.memory.watchTable i = some a ∧
        (s'.memory.event a).fd = (s.memory.event a).fd) ∧
      timers' = timers ∧ ∀ a ∈ timers, (s'.memory.event a).timeout = (s.memory.event a).timeout) :
    Awake s' wakeFd timers' turn := by
  have hwatch (p : ℤ → Prop) (hp : Notified s ∨ ∀ i a, s.memory.watchTable i = some a →
      p (s.memory.event a).fd) : Notified s' ∨ ∀ i a, s'.memory.watchTable i = some a →
      p (s'.memory.event a).fd := by
    rcases hsame with hn | ⟨htable, -⟩
    · exact .inl hn
    · refine hp.imp hnotified fun hall i a ha => ?_
      obtain ⟨ha', hfd⟩ := htable i a ha
      rw [hfd]
      exact hall i a ha'
  have hwatching {rfds : ℤ → Bool} (hr : Watching s wakeFd rfds) : Watching s' wakeFd rfds :=
    ⟨hr.1, hwatch (fun fd => rfds fd = true) hr.2⟩
  have htimed {wait since} (ht : Timed s timers wait since) : Timed s' timers' wait since := by
    refine ⟨ht.1.trans hnow, ?_⟩
    rcases hsame with hn | ⟨-, rfl, htimeout⟩
    · exact .inl hn
    · refine ht.2.imp hnotified fun hwait => ?_
      rw [hwait, calcNextTimeout_congr htimeout]
  cases turn with
  | copied rfds => exact hwatching h
  | first rfds tev =>
    refine ⟨hwatching h.1, ?_⟩
    rcases hsame with hn | ⟨-, rfl, -⟩
    · exact .inl hn
    · exact h.2.imp_left hnotified
  | timed rfds wait since => exact ⟨hwatching h.1, htimed h.2⟩
  | waiting rfds nfds wait since =>
    exact ⟨hwatching h.1, htimed h.2.1, h.2.2.1, hwatch (fun fd => fd < nfds) h.2.2.2⟩
  | _ => trivial

/-- A step that leaves the lists as they are. -/
theorem Inv.frame (h : Inv wakeFd s timers pending) (hturn : s'.turn = s.turn)
    (hlists : Lists s'.memory s'.known timers pending) (htable : Table s'.memory s'.known)
    (hslot : ∃ i, s'.memory.watchTable i = some wakeup)
    (hpersist : (s'.memory.event wakeup).persist = (s.memory.event wakeup).persist)
    (hevent : ∀ a, a = wakeup ∨ a ∈ timers ∨ a ∈ pending →
      (s'.memory.event a).fd = (s.memory.event a).fd ∧
        (s'.memory.event a).timeout = (s.memory.event a).timeout)
    (hlogs : s'.called = s.called ∧ s'.armed = s.armed) (hnow : s.now ≤ s'.now)
    (hawake : Awake s' wakeFd timers s.turn) : Inv wakeFd s' timers pending := by
  have hpast : s'.past pending = s.past pending :=
    past_congr hlogs.1 fun a ha => hevent a (.inr (.inr ha))
  refine ⟨hlists, htable, hslot, ?_, ?_, ?_, ?_, ?_, fun d hd => ?_, fun d hd a ha => ?_, ?_⟩
  · rw [(hevent wakeup (.inl rfl)).1, h.wake_fd]
  · rw [hpersist, h.wake_persist]
  · rw [hturn]
    exact h.queue.congr fun a ha => (hevent a (.inr (.inr ha))).1
  · rw [hlogs.2, hpast, entries_congr fun a ha => (hevent a (.inr (.inl ha))).2]
    exact h.conserved
  · rw [hpast]
    exact h.past_sorted
  · rw [hpast] at hd
    exact (h.past_over d hd).trans_le hnow
  · rw [hpast] at hd
    rw [(hevent a (.inr (.inl ha))).2]
    exact h.past_first d hd a ha
  · rwa [hturn]

/-- An idle event is in no list. -/
theorem Lists.idle {m : Memory} {known : Addr → Bool} (h : Lists m known timers pending)
    (hidle : Idle m a) : a ∉ timers ∧ a ∉ pending := by
  constructor
  · intro hmem
    obtain ⟨xs, ys, rfl⟩ := List.append_of_mem hmem
    exact absurd (hidle.1.symm.trans h.timerCircle.next_member) (by simp)
  · intro hmem
    obtain ⟨xs, ys, rfl⟩ := List.append_of_mem hmem
    exact absurd (hidle.1.symm.trans h.pendingCircle.next_member) (by simp)

theorem Inv.tick (h : Inv wakeFd s timers pending) {now : Timeval} (hnow : s.now ≤ now) :
    Inv wakeFd { s with now := now } timers pending :=
  h.frame rfl h.lists h.table h.wake_slot rfl (fun _ _ => ⟨rfl, rfl⟩) ⟨rfl, rfl⟩ hnow
    (h.awake.mono hnow id (.inr ⟨fun _ _ ha => ⟨ha, rfl⟩, rfl, fun _ _ => rfl⟩))

theorem Inv.trigger (h : Inv wakeFd s timers pending) :
    Inv wakeFd { s with adders := s.adders - 1, pipe := s.pipe + 1 } timers pending :=
  h.frame rfl h.lists h.table h.wake_slot rfl (fun _ _ => ⟨rfl, rfl⟩) ⟨rfl, rfl⟩ le_rfl
    (h.awake.mono le_rfl (fun _ => .inr (Nat.succ_pos _)) (.inl (.inr (Nat.succ_pos _))))

theorem Inv.ne_of_idle (h : Inv wakeFd s timers pending)
    (hidle : s.known a = true → Idle s.memory a) {b : Addr} (hb : b ∈ timers ∨ b ∈ pending) :
    b ≠ a := by
  rintro rfl
  have hknown : s.known b = true := hb.elim (h.lists.timers_known b) (h.lists.pending_known b)
  have := h.lists.idle (hidle hknown)
  exact hb.elim this.1 this.2

theorem Inv.set (h : Inv wakeFd s timers pending) {fd : ℤ} {persist : Bool}
    (hne : a ≠ .timerList) (hne' : a ≠ .pendingList) (hwake : a ≠ wakeup)
    (hidle : s.known a = true → Idle s.memory a) :
    Inv wakeFd { s with
      memory := ril_event_set s.memory a fd persist
      known := Function.update s.known a true } timers pending := by
  have hlist {b} (hb : b ∈ timers ∨ b ∈ pending) : b ≠ a := h.ne_of_idle hidle hb
  have hwatched {i b} (hb : s.memory.watchTable i = some b) : b ≠ a := by
    rintro rfl
    exact (hidle (h.table.entry_known hb)).2 i hb
  have hevent {b} (hb : b ≠ a) :
      (ril_event_set s.memory a fd persist).event b = s.memory.event b :=
    Function.update_of_ne hb _ _
  have hknown {b} (hb : s.known b = true) : Function.update s.known a true b = true := by
    rw [Function.update_apply]
    split_ifs
    · rfl
    · exact hb
  refine h.frame rfl ?_ ?_ h.wake_slot ?_ (fun b hb => ?_) ⟨rfl, rfl⟩ le_rfl
    (h.awake.mono le_rfl id (.inr ⟨fun i b hb => ⟨hb, ?_⟩, rfl, fun b hb => ?_⟩))
  · refine h.lists.congr (fun b hb => if_neg ?_) (fun b hb => ?_) ⟨?_, ?_⟩ fun b hb => hknown hb
    · rcases List.mem_cons.mp hb with rfl | hb
      · exact hne.symm
      · rcases List.mem_cons.mp hb with rfl | hb
        · exact hne'.symm
        · exact hlist (List.mem_append.mp hb)
    · simp only [hevent (hlist (.inl hb)), and_self]
    · simp only [Function.update_of_ne hne.symm, h.lists.clients.1]
    · simp only [Function.update_of_ne hne'.symm, h.lists.clients.2]
  · refine h.table.congr rfl rfl rfl (fun {i b} hb => ?_) fun {b} hb hindex => ?_
    · exact ⟨hknown (h.table.entry_known hb), by simp only [hevent (hwatched hb), and_self]⟩
    · have hba : b ≠ a := by
        rintro rfl
        simp [ril_event_set] at hindex
      simp only [Function.update_of_ne hba] at hb
      exact ⟨hb, by simp only [hevent hba]⟩
  · simp only [hevent hwake.symm]
  · have hba : b ≠ a := by
      rcases hb with rfl | hb
      · exact hwake.symm
      · exact hlist hb
    simp only [hevent hba, and_self]
  · simp only [hevent (hwatched hb)]
  · simp only [hevent (hlist (.inl hb))]

theorem Inv.del (h : Inv wakeFd s timers pending) (ha : s.known a = true) (hwake : a ≠ wakeup) :
    Inv wakeFd { s with memory := ril_event_del s.memory a } timers pending := by
  have hkept := kept_ril_event_del h.table ha
  have hentry := fun i b => ril_event_del_entry h.table ha (b := b) i
  obtain ⟨i, hi⟩ := h.wake_slot
  exact h.frame rfl (h.lists.kept hkept (ril_event_del_links s.memory a)) (h.table.ril_event_del ha)
    ⟨i, (hentry i wakeup).mpr ⟨hi, hwake.symm⟩⟩ (hkept.persist wakeup)
    (fun b _ => ⟨hkept.fd b, hkept.timeout b⟩) ⟨rfl, rfl⟩ le_rfl
    (h.awake.mono le_rfl id (.inr ⟨fun j b hb => ⟨((hentry j b).mp hb).1, hkept.fd b⟩, rfl,
      fun b _ => hkept.timeout b⟩))

/-- A client that adds something wakes the loop, or is one of its callbacks. -/
theorem Awake.added {inLoop : Bool} (hcalling : s.Calling inLoop)
    (h : Awake s wakeFd timers s.turn) {timers' : List Addr} (hnow : s'.now = s.now) :
    Awake (s'.added inLoop) wakeFd timers' s.turn := by
  cases inLoop with
  | true =>
    obtain ⟨ev, hev⟩ := hcalling rfl
    rw [hev]
    trivial
  | false =>
    exact h.mono (le_of_eq hnow.symm) (fun _ => .inl (Nat.succ_pos _))
      (.inl (.inl (Nat.succ_pos _)))

theorem Inv.add (h : Inv wakeFd s timers pending) {inLoop : Bool} (hcalling : s.Calling inLoop)
    (ha : s.known a = true) (hfree : ∀ i, s.memory.watchTable i ≠ some a)
    (hfd : 0 ≤ (s.memory.event a).fd ∧ (s.memory.event a).fd < FD_SETSIZE)
    (hnew : s.memory.readFds (s.memory.event a).fd = false) :
    Inv wakeFd (State.added { s with memory := ril_event_add s.memory a } inLoop) timers pending := by
  have hkept := kept_ril_event_add s.memory a
  obtain ⟨i, hi⟩ := h.wake_slot
  refine h.frame (by simp) ?_ ?_ ⟨i, ?_⟩ ?_ (fun b _ => ?_) (by simp) (by simp)
    (h.awake.added hcalling rfl)
  · simpa using h.lists.kept hkept (ril_event_add_links s.memory a)
  · simpa using h.table.ril_event_add ha hfree hfd hnew
  · simpa using ril_event_add_entry hi a
  · simpa using hkept.persist wakeup
  · simpa using ⟨hkept.fd b, hkept.timeout b⟩

theorem Inv.timer (h : Inv wakeFd s timers pending) {inLoop : Bool} (hcalling : s.Calling inLoop)
    (ha : s.known a = true) (hwake : a ≠ wakeup) (hidle : Idle s.memory a) {tv : Timeval}
    (hsec : 0 ≤ tv.tv_sec) (husec : 0 ≤ tv.tv_usec) :
    ∃ fuel s' timers', s.step fuel (.timer inLoop a tv) = some s' ∧
      Inv wakeFd s' timers' pending ∧ s'.called = s.called ∧
      ∀ b, b ≠ a → s'.memory.event b = s.memory.event b := by
  obtain ⟨htimer, hpending⟩ := h.lists.idle hidle
  obtain ⟨fuel, l, xs, ys, hadd, rfl, hlists⟩ :=
    h.lists.ril_timer_add ha htimer hpending s.now tv
  set d := timeradd s.now tv
  set m : Memory := { Lists.armed s.memory a d with links := l } with hm
  have hself : (m.event a).timeout = d := by
    simp [hm, Lists.armed]
  have hother {b} (hb : b ≠ a) : m.event b = s.memory.event b :=
    Function.update_of_ne hb _ _
  have hindex (b) : (m.event b).index = (s.memory.event b).index := by
    rcases eq_or_ne b a with rfl | hb
    · simp [hm, Lists.armed]
    · rw [hother hb]
  have hpending_ne {b} (hb : b ∈ pending) : b ≠ a := fun hba => hpending (hba ▸ hb)
  have htimers_ne {b} (hb : b ∈ xs ++ ys) : b ≠ a := fun hba => htimer (hba ▸ hb)
  have hwatched {i b} (hb : s.memory.watchTable i = some b) : b ≠ a := by
    rintro rfl
    exact hidle.2 i hb
  obtain ⟨i, hi⟩ := h.wake_slot
  refine ⟨fuel, State.added { s with memory := m, armed := s.armed ++ [(a, d)] } inLoop,
    xs ++ a :: ys, ?_, ?_, by simp, fun b hb => by simpa using hother hb⟩
  · rw [State.step, hadd, Option.map_some]
    show some (State.added { s with armed := s.armed ++ [(a, (m.event a).timeout)], memory := m }
      inLoop) = _
    rw [hself]
  · have hpast : (State.added { s with memory := m, armed := s.armed ++ [(a, d)] } inLoop).past
        pending = s.past pending := by
      refine past_congr (by simp) fun b hb => ?_
      simp only [State.added_memory, hother (hpending_ne hb), and_self]
    have hle : s.now ≤ d := le_timeradd hsec husec
    refine ⟨?_, ?_, ⟨i, ?_⟩, ?_, ?_, ?_, ?_, ?_, ?_, ?_, ?_⟩
    · simpa using hlists
    · simp only [State.added_memory, State.added_known]
      refine h.table.congr rfl rfl rfl (fun {i b} hb => ?_) fun {b} hb _ => ⟨hb, hindex b⟩
      simp only [hother (hwatched hb), h.table.entry_known hb, and_self]
    · rw [State.added_memory]
      exact hi
    · simp only [State.added_memory, hother hwake.symm, h.wake_fd]
    · simp only [State.added_memory, hother hwake.symm, h.wake_persist]
    · simp only [State.added_memory, State.added_turn]
      exact h.queue.congr fun b hb => by rw [hother (hpending_ne hb)]
    · rw [hpast]
      simp only [State.added_memory, State.added_armed]
      have hentries {zs} (hzs : ∀ b ∈ zs, b ∈ xs ++ ys) : entries m zs = entries s.memory zs :=
        entries_congr fun b hb => by rw [hother (htimers_ne (hzs b hb))]
      have hinsert : entries m (xs ++ a :: ys) =
          entries s.memory xs ++ (a, d) :: entries s.memory ys := by
        rw [← hentries fun b hb => List.mem_append_left ys hb,
          ← hentries fun b hb => List.mem_append_right xs hb, ← hself]
        simp [entries]
      have hconserved := h.conserved
      rw [entries, List.map_append, ← entries, ← entries, ← List.append_assoc] at hconserved
      rw [hinsert, ← List.append_assoc]
      exact (List.perm_append_singleton _ _).trans
        ((hconserved.cons _).trans List.perm_middle.symm)
    · rw [hpast]
      exact h.past_sorted
    · rw [hpast]
      simpa using h.past_over
    · rw [hpast]
      intro e he b hb
      simp only [State.added_memory]
      rcases eq_or_ne b a with rfl | hba
      · rw [hself]
        exact ((h.past_over e he).trans_le hle).le
      · rw [hother hba]
        exact h.past_first e he b (by simpa [hba] using hb)
    · simp only [State.added_turn]
      exact h.awake.added hcalling rfl

/-! ## Steps of the loop -/

/-- The loop goes on without a change of the memory. -/
theorem Inv.goOn (h : Inv wakeFd s timers pending) {turn : Turn}
    (hqueue : PendingInv s.memory pending turn)
    (hawake : Awake { s with turn := turn } wakeFd timers turn) :
    Inv wakeFd { s with turn := turn } timers pending :=
  { h with queue := hqueue, awake := hawake }

theorem Inv.copied (h : Inv wakeFd s timers pending) (hturn : s.turn = .top) :
    Inv wakeFd { s with turn := .copied s.memory.readFds } timers pending := by
  obtain ⟨i, hi⟩ := h.wake_slot
  have hqueue := h.queue
  rw [hturn] at hqueue
  refine h.goOn hqueue ⟨?_, .inr fun j b hb => h.table.entry_read hb⟩
  have hread := h.table.entry_read hi
  rwa [h.wake_fd] at hread

theorem Inv.first (h : Inv wakeFd s timers pending) {rfds : ℤ → Bool}
    (hturn : s.turn = .copied rfds) : ∃ tev, (s.memory.links .timerList).next = some tev ∧
      Inv wakeFd { s with turn := .first rfds tev } timers pending := by
  have hqueue := h.queue
  have hawake := h.awake
  rw [hturn] at hqueue hawake
  exact ⟨_, h.lists.timerCircle.next_sentinel, h.goOn hqueue ⟨hawake, .inr rfl⟩⟩

theorem Inv.timed (h : Inv wakeFd s timers pending) {rfds : ℤ → Bool} {tev : Addr}
    (hturn : s.turn = .first rfds tev) :
    Inv wakeFd { s with turn := .timed rfds (calcNextTimeout s.memory tev s.now) s.now }
      timers pending := by
  have hqueue := h.queue
  have hawake := h.awake
  rw [hturn] at hqueue hawake
  refine h.goOn hqueue ⟨hawake.1, le_rfl, hawake.2.imp id ?_⟩
  rintro rfl
  rfl

theorem Inv.waiting (h : Inv wakeFd s timers pending) {rfds : ℤ → Bool} {wait : Option Timeval}
    {since : Timeval} (hturn : s.turn = .timed rfds wait since) :
    Inv wakeFd { s with turn := .waiting rfds s.memory.nfds wait since } timers pending := by
  obtain ⟨i, hi⟩ := h.wake_slot
  have hqueue := h.queue
  have hawake := h.awake
  rw [hturn] at hqueue hawake
  refine h.goOn hqueue ⟨hawake.1, hawake.2, ?_, .inr fun j b hb => h.table.entry_nfds hb⟩
  have hnfds := h.table.entry_nfds hi
  rwa [h.wake_fd] at hnfds

/-- The expired timers become pending. -/
theorem Inv.expired (h : Inv wakeFd s timers pending) {fds : List ℤ}
    (hturn : s.turn = .selected fds) :
    ∃ fuel m timers' pending', processTimeouts s.memory fuel s.now = some m ∧
      Inv wakeFd { s with memory := m, turn := .expired fds } timers' pending' := by
  have hqueue := h.queue
  rw [hturn] at hqueue
  obtain rfl : pending = [] := hqueue
  obtain ⟨fuel, l, hprocess, hlists⟩ := h.lists.processTimeouts s.now
  set before := Lists.due s.memory s.now with hbefore
  have hsplit : timers = timers.takeWhile before ++ timers.dropWhile before :=
    List.takeWhile_append_dropWhile.symm
  have htaken {b} (hb : b ∈ timers.takeWhile before) : b ∈ timers :=
    (List.takeWhile_prefix before).subset hb
  have hleft {b} (hb : b ∈ timers.dropWhile before) : b ∈ timers :=
    (List.dropWhile_suffix before).subset hb
  have hfd : ∀ b ∈ timers.takeWhile before, (s.memory.event b).fd = -1 :=
    fun b hb => h.lists.timer_fd b (htaken hb)
  have hpast : State.past { s with
      memory := { s.memory with links := l }
      turn := .expired fds } (timers.takeWhile before) =
      s.past [] ++ entries s.memory (timers.takeWhile before) := by
    have hfilter : (timers.takeWhile before).filter (fun a => (s.memory.event a).fd = -1) =
        timers.takeWhile before :=
      List.filter_eq_self.mpr fun b hb => by simp [hfd b hb]
    show timerCalls s.called ++ entries s.memory ((timers.takeWhile before).filter _) = _
    rw [hfilter]
    simp [State.past, entries]
  refine ⟨fuel, _, timers.dropWhile before, timers.takeWhile before, hprocess, hlists, ?_,
    h.wake_slot, h.wake_fd, h.wake_persist, hfd, ?_, ?_, ?_, ?_, trivial⟩
  · exact h.table.congr rfl rfl rfl (fun hb => ⟨h.table.entry_known hb, rfl, rfl⟩)
      fun hb _ => ⟨hb, rfl⟩
  · rw [hpast]
    have hconserved := h.conserved
    rw [hsplit, entries, List.map_append, ← List.append_assoc] at hconserved
    exact hconserved
  · rw [hpast]
    refine List.pairwise_append.mpr ⟨h.past_sorted, List.pairwise_map.mpr ?_, fun d hd e he => ?_⟩
    · exact (hsplit ▸ h.lists.sorted : List.Pairwise _ _).sublist (List.takeWhile_sublist before)
    · obtain ⟨b, hb, rfl⟩ := List.mem_map.mp he
      exact h.past_first d hd b (htaken hb)
  · rw [hpast]
    intro d hd
    rcases List.mem_append.mp hd with hd | hd
    · exact h.past_over d hd
    · obtain ⟨b, hb, rfl⟩ := List.mem_map.mp hd
      exact Lists.due_of_mem_takeWhile hb
  · rw [hpast]
    intro d hd b hb
    rcases List.mem_append.mp hd with hd | hd
    · exact h.past_first d hd b (hleft hb)
    · obtain ⟨c, hc, rfl⟩ := List.mem_map.mp hd
      exact (Lists.due_of_mem_takeWhile hc).le.trans (Lists.le_of_mem_dropWhile h.lists.sorted hb)

/-- The ready events are appended to the expired timers. -/
theorem Inv.firing (h : Inv wakeFd s timers pending) {fds : List ℤ}
    (hturn : s.turn = .expired fds) :
    ∃ m ev, processReadReadies s.memory (fun fd => decide (fd ∈ fds)) fds.length = some m ∧
      (m.links .pendingList).next = some ev ∧ Kept s.memory m ∧
      Inv wakeFd { s with memory := m, turn := .firing ev } timers
        (pending ++ readyEvents s.memory fun fd => decide (fd ∈ fds)) := by
  have hqueue := h.queue
  rw [hturn] at hqueue
  have hready {b} (hb : b ∈ readyEvents s.memory fun fd => decide (fd ∈ fds)) :
      0 ≤ (s.memory.event b).fd := by
    obtain ⟨i, -, hi⟩ := List.mem_filterMap.mp hb
    exact (h.table.entry_fd (readyAt_eq_some.mp hi).1).1
  obtain ⟨m, hm, hlists, htable, hkept, hpersist⟩ :=
    processReadReadies_spec h.lists h.table fun b hb hmem => by
      have := hqueue b hmem
      have := hready hb
      omega
  obtain ⟨i, hi⟩ := h.wake_slot
  have hpast (ev : Addr) : State.past { s with memory := m, turn := .firing ev }
      (pending ++ readyEvents s.memory fun fd => decide (fd ∈ fds)) = s.past pending := by
    have hnone : (readyEvents s.memory fun fd => decide (fd ∈ fds)).filter
        (fun a => (m.event a).fd = -1) = [] := by
      refine List.filter_eq_nil_iff.mpr fun b hb => ?_
      have := hready hb
      rw [hkept.fd]
      simp only [decide_eq_true_eq]
      omega
    rw [State.past, List.filter_append, hnone, List.append_nil]
    exact past_congr rfl fun b _ => ⟨hkept.fd b, hkept.timeout b⟩
  have hentries : entries m timers = entries s.memory timers :=
    entries_congr fun b _ => hkept.timeout b
  refine ⟨m, _, hm, hlists.pendingCircle.next_sentinel, hkept, hlists, htable,
    ⟨i, hpersist i wakeup hi h.wake_persist⟩, ?_, ?_, rfl, ?_, ?_, ?_, ?_, trivial⟩
  · rw [hkept.fd, h.wake_fd]
  · rw [hkept.persist, h.wake_persist]
  · rw [hpast, hentries]
    exact h.conserved
  · rw [hpast]
    exact h.past_sorted
  · rw [hpast]
    exact h.past_over
  · rw [hpast]
    intro d hd b hb
    rw [hkept.timeout]
    exact h.past_first d hd b hb

theorem Inv.fired (h : Inv wakeFd s timers []) {ev : Addr} (hturn : s.turn = .firing ev) :
    ev = .pendingList ∧ Inv wakeFd { s with turn := .top } timers [] := by
  have hqueue := h.queue
  rw [hturn] at hqueue
  exact ⟨hqueue, h.goOn rfl trivial⟩

/-- The first pending event is called. -/
theorem Inv.fire (h : Inv wakeFd s timers (a :: pending)) {ev : Addr}
    (hturn : s.turn = .firing ev) :
    ev = a ∧ a ≠ .pendingList ∧ ∃ m next, takePending s.memory a = some (m, next) ∧
      m.event = s.memory.event ∧
      Inv wakeFd (State.call { s with memory := m, turn := .firing next } a) timers pending := by
  have hqueue := h.queue
  rw [hturn] at hqueue
  have hcircle : Circle s.memory.links .pendingList ([] ++ a :: pending) := h.lists.pendingCircle
  obtain ⟨l, hremove, hlists⟩ := h.lists.removePending
  have hpast : State.past (State.call { s with
      memory := { s.memory with links := l }
      turn := .firing (pending.head?.getD .pendingList) } a) pending = s.past (a :: pending) := by
    simp only [State.past, State.call, callOf, timerCalls, entries, List.filter_append, List.filter_cons,
      List.filter_nil, List.map_append]
    split_ifs
    · simp
    · simp
  refine ⟨hqueue, (h.lists.ne_sentinel (h.lists.pending_known a List.mem_cons_self)).2,
    { s.memory with links := l }, _, ?_, rfl, hlists, ?_, h.wake_slot, h.wake_fd, h.wake_persist,
    rfl, ?_, ?_, ?_, ?_, trivial⟩
  · rw [takePending, hcircle.next_member, Option.bind_some, hremove, Option.map_some]
  · exact h.table.congr rfl rfl rfl (fun hb => ⟨h.table.entry_known hb, rfl, rfl⟩)
      fun hb _ => ⟨hb, rfl⟩
  · rw [hpast]
    exact h.conserved
  · rw [hpast]
    exact h.past_sorted
  · rw [hpast]
    exact h.past_over
  · rw [hpast]
    exact h.past_first

/-- Whatever the loop comes to next, it does without failing. -/
theorem Inv.turnOn (h : Inv wakeFd s timers pending) (result : Select) :
    ∃ fuel s' timers' pending', s.turnOn fuel result = some s' ∧
      Inv wakeFd s' timers' pending' := by
  have hqueue := h.queue
  cases hturn : s.turn with
  | top => exact ⟨0, _, timers, pending, by rw [State.turnOn.eq_def, hturn], h.copied hturn⟩
  | copied rfds =>
    obtain ⟨tev, htev, hinv⟩ := h.first hturn
    exact ⟨0, _, timers, pending, by rw [State.turnOn.eq_def, hturn, htev]; rfl, hinv⟩
  | first rfds tev => exact ⟨0, _, timers, pending, by rw [State.turnOn.eq_def, hturn], h.timed hturn⟩
  | timed rfds wait since =>
    exact ⟨0, _, timers, pending, by rw [State.turnOn.eq_def, hturn], h.waiting hturn⟩
  | waiting rfds nfds wait since =>
    rw [hturn] at hqueue
    cases result with
    | ready fds =>
      have hinv : Inv wakeFd { s with turn := .selected fds } timers pending := h.goOn hqueue trivial
      exact ⟨0, _, timers, pending, by rw [State.turnOn.eq_def, hturn], hinv⟩
    | interrupted =>
      have hinv : Inv wakeFd { s with turn := .top } timers pending := h.goOn hqueue trivial
      exact ⟨0, _, timers, pending, by rw [State.turnOn.eq_def, hturn], hinv⟩
    | failed =>
      have hinv : Inv wakeFd { s with turn := .returned } timers pending := h.goOn hqueue trivial
      exact ⟨0, _, timers, pending, by rw [State.turnOn.eq_def, hturn], hinv⟩
  | selected fds =>
    obtain ⟨fuel, m, timers', pending', hm, hinv⟩ := h.expired hturn
    exact ⟨fuel, _, timers', pending', by rw [State.turnOn.eq_def, hturn, hm]; rfl, hinv⟩
  | expired fds =>
    obtain ⟨m, ev, hm, hev, -, hinv⟩ := h.firing hturn
    exact ⟨0, _, timers, _, by rw [State.turnOn_expired hturn, hm, Option.bind_some, hev]; rfl, hinv⟩
  | firing ev =>
    cases pending with
    | nil =>
      obtain ⟨hev, hinv⟩ := h.fired hturn
      exact ⟨0, _, timers, [], by rw [State.turnOn.eq_def, hturn, hev]; rfl, hinv⟩
    | cons a pending =>
      obtain ⟨rfl, hne, m, next, hm, -, hinv⟩ := h.fire hturn
      exact ⟨0, _, timers, pending, by rw [State.turnOn_firing hturn hne, hm]; rfl, hinv⟩
  | returned => exact ⟨0, s, timers, pending, by rw [State.turnOn.eq_def, hturn], h⟩

/-! ## Runs -/

/-- What the clients do changes nothing about what is to be called. -/
theorem Inv.client (h : Inv wakeFd s timers pending) {i : Input} (hlegal : Legal s i)
    (hclient : ∀ result, i ≠ .loop result) :
    ∃ fuel s' timers', s.step fuel i = some s' ∧ Inv wakeFd s' timers' pending ∧
      s'.called = s.called ∧ pending.map (callOf s'.memory) = pending.map (callOf s.memory) := by
  have hcalls {m : Memory} (hm : ∀ b ∈ pending, (m.event b).fd = (s.memory.event b).fd ∧
      (m.event b).timeout = (s.memory.event b).timeout) :
      pending.map (callOf m) = pending.map (callOf s.memory) :=
    List.map_congr_left fun b hb => by rw [callOf, callOf, (hm b hb).1, (hm b hb).2]
  cases i with
  | tick now => exact ⟨0, _, timers, rfl, h.tick hlegal, rfl, rfl⟩
  | set inLoop ev fd persist =>
    obtain ⟨-, hne, hne', hwake, hidle⟩ := hlegal
    refine ⟨0, _, timers, rfl, h.set hne hne' hwake hidle, rfl, hcalls fun b hb => ?_⟩
    simp only [ril_event_set, Function.update_of_ne (h.ne_of_idle hidle (.inr hb)), and_self]
  | add inLoop ev =>
    obtain ⟨hcalling, hknown, -, hfree, hfd, hnew⟩ := hlegal
    have hkept := kept_ril_event_add s.memory ev
    refine ⟨0, _, timers, rfl, h.add hcalling hknown hfree hfd hnew, by simp, hcalls fun b _ => ?_⟩
    simpa using ⟨hkept.fd b, hkept.timeout b⟩
  | timer inLoop ev tv =>
    obtain ⟨hcalling, hknown, hwake, hidle, hsec, husec⟩ := hlegal
    obtain ⟨fuel, s', timers', hstep, hinv, hcalled, hevent⟩ :=
      h.timer hcalling hknown hwake hidle hsec husec
    refine ⟨fuel, s', timers', hstep, hinv, hcalled, hcalls fun b hb => ?_⟩
    simp only [hevent b (h.ne_of_idle (fun _ => hidle) (.inr hb)), and_self]
  | del inLoop ev =>
    have hkept := kept_ril_event_del h.table hlegal.2.1
    exact ⟨0, _, timers, rfl, h.del hlegal.2.1 hlegal.2.2, rfl,
      hcalls fun b _ => ⟨hkept.fd b, hkept.timeout b⟩⟩
  | trigger => exact ⟨0, _, timers, rfl, h.trigger, rfl, rfl⟩
  | loop result => exact absurd rfl (hclient result)

/-- No legal input fails, and every one preserves the invariant. -/
theorem Inv.step (h : Inv wakeFd s timers pending) {i : Input} (hlegal : Legal s i) :
    ∃ fuel s' timers' pending', s.step fuel i = some s' ∧ Inv wakeFd s' timers' pending' := by
  by_cases hclient : ∀ result, i ≠ .loop result
  · obtain ⟨fuel, s', timers', hstep, hinv, -⟩ := h.client hlegal hclient
    exact ⟨fuel, s', timers', pending, hstep, hinv⟩
  · obtain ⟨result, rfl⟩ := not_forall_not.mp hclient
    exact h.turnOn result

theorem inv_start (memory : Memory) {wakeFd : ℤ} (hfd : 0 ≤ wakeFd ∧ wakeFd < FD_SETSIZE)
    (now : Timeval) : Inv wakeFd (start memory wakeFd now) [] [] := by
  set m := ril_event_set (ril_event_init memory) wakeup wakeFd true with hm
  have hself : m.event wakeup = ⟨wakeFd, -1, true, ⟨0, 0⟩⟩ := by
    simp [hm, ril_event_set]
  have hlists : Lists m (fun a => decide (a = wakeup)) [] [] := by
    refine ⟨(Circle.initList memory.links .timerList).frame fun a ha => ?_,
      (Circle.initList (memory.links.initList .timerList) .pendingList).frame fun a ha => ?_,
      by decide, by simp, by simp, by simp, .nil, by simp⟩
    · obtain rfl := List.mem_singleton.mp ha
      rfl
    · obtain rfl := List.mem_singleton.mp ha
      rfl
  have htable : Table m fun a => decide (a = wakeup) := by
    refine ⟨fun h => ?_, fun h => ?_, fun h => ?_, fun h => ?_, fun h => ?_, fun ha hindex => ?_,
      fun h => ?_, fun h => ?_, .inl ?_⟩
    · cases h
    · cases h
    · cases h
    · cases h
    · cases h
    · obtain rfl := of_decide_eq_true ha
      simp [hself] at hindex
    · cases h
    · cases h
    · exact Int.zero_le_ofNat 1
  have hkept := kept_ril_event_add m wakeup
  refine ⟨hlists.kept hkept (ril_event_add_links m wakeup),
    htable.ril_event_add rfl (fun i hi => ?_) ?_ rfl, ?_, ?_, ?_, rfl, .nil, .nil,
    fun d hd => absurd hd List.not_mem_nil, fun d hd => absurd hd List.not_mem_nil, trivial⟩
  · cases hi
  · rwa [hself]
  · show ∃ i, (ril_event_add m wakeup).watchTable i = some wakeup
    rcases ril_event_add_cases m wakeup with ⟨i, -, hi, -⟩ | ⟨hfull, -⟩
    · exact ⟨i, by rw [hi, Function.update_self]⟩
    · exact absurd rfl (hfull 0)
  · exact (hkept.fd wakeup).trans (congrArg RilEvent.fd hself)
  · exact (hkept.persist wakeup).trans (congrArg RilEvent.persist hself)

theorem Reach.inv {memory : Memory} {now : Timeval} {good : State → Prop}
    (hfd : 0 ≤ wakeFd ∧ wakeFd < FD_SETSIZE) (h : Reach good (start memory wakeFd now) s) :
    ∃ timers pending, Inv wakeFd s timers pending := by
  induction h with
  | refl => exact ⟨[], [], inv_start memory hfd now⟩
  | tail _ hstep ih =>
    obtain ⟨timers, pending, hinv⟩ := ih
    obtain ⟨i, fuel, hlegal, -, hs⟩ := hstep
    obtain ⟨fuel', s', timers', pending', hs', hinv'⟩ := hinv.step hlegal
    rw [State.step_unique hs hs']
    exact ⟨timers', pending', hinv'⟩

/-! ## A run

Another thread adds two timers and an event for descriptor 5. The first timer expires while
the loop is woken; then the loop waits again, with an empty pipe. -/

/-- The state after some inputs, with enough fuel for them. -/
def State.after (s : State) (inputs : List Input) : State :=
  inputs.foldl (fun s i => (s.step 3 i).getD s) s

theorem Reach.after {good : State → Prop} {s₀ : State} (h : Reach good s₀ s) (i : Input)
    (hlegal : Legal s i) (hgood : good s) (hok : (s.step 3 i).isSome) :
    Reach good s₀ (s.after [i]) := by
  obtain ⟨s', hs'⟩ := Option.isSome_iff_exists.mp hok
  refine h.tail ⟨i, 3, hlegal, hgood, ?_⟩
  show s.step 3 i = some ((s.step 3 i).getD s)
  rw [hs', Option.getD_some]

def sampleStart : State :=
  start ⟨fun _ => ⟨none, none⟩, fun _ => ⟨0, 0, false, ⟨0, 0⟩⟩, fun _ => none, fun _ => false, 0⟩ 3
    ⟨0, 0⟩

def sampleArmed : State :=
  sampleStart.after [.set false (.event 1) (-1) false, .timer false (.event 1) ⟨0, 5⟩,
    .set false (.event 2) (-1) false, .timer false (.event 2) ⟨0, 100⟩, .trigger, .trigger]

def sampleWatched : State :=
  sampleArmed.after [.set false (.event 3) 5 true, .add false (.event 3), .trigger]

def sampleWaiting : State :=
  sampleWatched.after [.loop .failed, .loop .failed, .loop .failed, .loop .failed]

def sampleExpired : State :=
  sampleWaiting.after [.tick ⟨0, 10⟩, .loop (.ready [3]), .loop .failed]

def sampleFiring : State := sampleExpired.after [.loop .failed]

def sampleTop : State := sampleFiring.after [.loop .failed, .loop .failed, .loop .failed]

def sampleWaitingAgain : State :=
  sampleTop.after [.loop .failed, .loop .failed, .loop .failed, .loop .failed]

theorem reach_sampleArmed : Reach Always sampleStart sampleArmed := by
  have h₀ : Reach Always sampleStart sampleStart := .refl
  have h₁ := h₀.after (.set false (.event 1) (-1) false)
    ⟨nofun, nofun, nofun, by decide, nofun⟩ trivial rfl
  have h₂ := h₁.after (.timer false (.event 1) ⟨0, 5⟩)
    ⟨nofun, rfl, by decide, ⟨rfl, by decide⟩, by decide, by decide⟩ trivial rfl
  have h₃ := h₂.after (.set false (.event 2) (-1) false)
    ⟨nofun, nofun, nofun, by decide, nofun⟩ trivial rfl
  have h₄ := h₃.after (.timer false (.event 2) ⟨0, 100⟩)
    ⟨nofun, rfl, by decide, ⟨rfl, by decide⟩, by decide, by decide⟩ trivial rfl
  exact (h₄.after .trigger Nat.two_pos trivial rfl).after .trigger Nat.one_pos trivial rfl

theorem reach_sampleWatched : Reach Always sampleStart sampleWatched := by
  have h₁ := reach_sampleArmed.after (.set false (.event 3) 5 true)
    ⟨nofun, nofun, nofun, by decide, nofun⟩ trivial rfl
  have h₂ := h₁.after (.add false (.event 3))
    ⟨nofun, rfl, by decide, by decide, ⟨by decide, by decide⟩, rfl⟩ trivial rfl
  exact h₂.after .trigger Nat.one_pos trivial rfl

theorem reach_sampleWaiting : Reach Always sampleStart sampleWaiting := by
  have h₁ := reach_sampleWatched.after (.loop .failed) trivial trivial rfl
  have h₂ := h₁.after (.loop .failed) trivial trivial rfl
  have h₃ := h₂.after (.loop .failed) trivial trivial rfl
  exact h₃.after (.loop .failed) trivial trivial rfl

theorem reach_sampleExpired : Reach Always sampleStart sampleExpired := by
  have hnow : (⟨0, 0⟩ : Timeval) ≤ ⟨0, 10⟩ := by decide
  have h₁ := reach_sampleWaiting.after (.tick ⟨0, 10⟩) hnow trivial rfl
  have h₂ := h₁.after (.loop (.ready [3])) trivial trivial rfl
  exact h₂.after (.loop .failed) trivial trivial rfl

theorem reach_sampleTop : Reach Firing sampleFiring sampleTop := by
  have h₀ : Reach Firing sampleFiring sampleFiring := .refl
  have h₁ := h₀.after (.loop .failed) trivial ⟨_, rfl⟩ rfl
  have h₂ := h₁.after (.loop .failed) trivial ⟨_, rfl⟩ rfl
  exact h₂.after (.loop .failed) trivial ⟨_, rfl⟩ rfl

theorem reach_sampleWaitingAgain : Reach Always sampleStart sampleWaitingAgain := by
  have hfiring := reach_sampleExpired.after (.loop .failed) trivial trivial rfl
  have htop : Reach Always sampleStart sampleTop :=
    hfiring.trans (reach_sampleTop.lift id fun _ _ ⟨i, fuel, hlegal, _, hs⟩ =>
      ⟨i, fuel, hlegal, trivial, hs⟩)
  have h₁ := htop.after (.loop .failed) trivial trivial rfl
  have h₂ := h₁.after (.loop .failed) trivial trivial rfl
  have h₃ := h₂.after (.loop .failed) trivial trivial rfl
  exact h₃.after (.loop .failed) trivial trivial rfl

/-! ## Results -/

/-- As long as the clients keep to `Legal`, neither the loop nor they ever go through a null
    pointer or along a list that does not end, and what they share stays consistent. -/
theorem runs_safe {memory : Memory} {now : Timeval} (hfd : 0 ≤ wakeFd ∧ wakeFd < FD_SETSIZE)
    (h : Reach Always (start memory wakeFd now) s) :
    (∃ timers pending, Lists s.memory s.known timers pending) ∧ Table s.memory s.known ∧
      ∀ i, Legal s i → ∃ fuel s', s.step fuel i = some s' := by
  obtain ⟨timers, pending, hinv⟩ := h.inv hfd
  refine ⟨⟨timers, pending, hinv.lists⟩, hinv.table, fun i hlegal => ?_⟩
  obtain ⟨fuel, s', -, -, hstep, -⟩ := hinv.step hlegal
  exact ⟨fuel, s', hstep⟩

theorem runs_safe_sample : (∃ timers pending,
      Lists sampleExpired.memory sampleExpired.known timers pending) ∧
    Table sampleExpired.memory sampleExpired.known ∧
      ∀ i, Legal sampleExpired i → ∃ fuel s', sampleExpired.step fuel i = some s' :=
  runs_safe ⟨by decide, by decide⟩ reach_sampleExpired

/-- The timers added in a run are those called, those about to be called and those in the
    list, in the order of their deadlines; the first two kinds have expired. -/
theorem timers_in_order {memory : Memory} {now : Timeval}
    (hfd : 0 ≤ wakeFd ∧ wakeFd < FD_SETSIZE) (h : Reach Always (start memory wakeFd now) s) :
    ∃ timers pending, Circle s.memory.links .timerList timers ∧
      Circle s.memory.links .pendingList pending ∧
      s.armed.Perm (s.past pending ++ entries s.memory timers) ∧
      (s.past pending ++ entries s.memory timers).Pairwise (fun d e => d.2 ≤ e.2) ∧
      ∀ d ∈ s.past pending, d.2 < s.now := by
  obtain ⟨timers, pending, hinv⟩ := h.inv hfd
  refine ⟨timers, pending, hinv.lists.timerCircle, hinv.lists.pendingCircle, hinv.conserved, ?_,
    hinv.past_over⟩
  refine List.pairwise_append.mpr ⟨hinv.past_sorted, List.pairwise_map.mpr hinv.lists.sorted,
    fun d hd e he => ?_⟩
  obtain ⟨a, ha, rfl⟩ := List.mem_map.mp he
  exact hinv.past_first d hd a ha

theorem timers_in_order_sample : ∃ timers pending,
    Circle sampleExpired.memory.links .timerList timers ∧
      Circle sampleExpired.memory.links .pendingList pending ∧
      sampleExpired.armed.Perm
        (sampleExpired.past pending ++ entries sampleExpired.memory timers) ∧
      (sampleExpired.past pending ++ entries sampleExpired.memory timers).Pairwise
        (fun d e => d.2 ≤ e.2) ∧
      ∀ d ∈ sampleExpired.past pending, d.2 < sampleExpired.now :=
  timers_in_order ⟨by decide, by decide⟩ reach_sampleExpired

/-- The time left to a deadline. -/
def remaining (deadline since : Timeval) : Timeval :=
  if since < deadline then timersub deadline since else ⟨0, 0⟩

/-- A loop that waits has the wake-up pipe in its set. Unless it is about to be woken, it has
    every watched descriptor there, too, and waits no longer than to the first deadline. -/
theorem no_lost_wakeup {memory : Memory} {now : Timeval}
    (hfd : 0 ≤ wakeFd ∧ wakeFd < FD_SETSIZE) (h : Reach Always (start memory wakeFd now) s)
    {rfds : ℤ → Bool} {nfds : ℤ} {wait : Option Timeval} {since : Timeval}
    (hturn : s.turn = .waiting rfds nfds wait since) :
    (rfds wakeFd = true ∧ wakeFd < nfds) ∧ (Notified s ∨
      (∀ i a, s.memory.watchTable i = some a →
        rfds (s.memory.event a).fd = true ∧ (s.memory.event a).fd < nfds) ∧
      ∃ timers, Circle s.memory.links .timerList timers ∧
        ∀ a ∈ timers, ∃ d ≤ (s.memory.event a).timeout, wait = some (remaining d since)) := by
  obtain ⟨timers, pending, hinv⟩ := h.inv hfd
  have hawake := hinv.awake
  rw [hturn] at hawake
  obtain ⟨⟨hwake, hwatched⟩, ⟨-, htimed⟩, hnfds, hbound⟩ := hawake
  refine ⟨⟨hwake, hnfds⟩, ?_⟩
  by_cases hnotified : Notified s
  · exact .inl hnotified
  · have hwatched := hwatched.resolve_left hnotified
    have hbound := hbound.resolve_left hnotified
    have hwait := htimed.resolve_left hnotified
    refine .inr ⟨fun i a ha => ⟨hwatched i a ha, hbound i a ha⟩, timers,
      hinv.lists.timerCircle, fun a ha => ?_⟩
    cases timers with
    | nil => exact absurd ha List.not_mem_nil
    | cons b timers =>
      have hb := (hinv.lists.ne_sentinel (hinv.lists.timers_known b List.mem_cons_self)).1
      refine ⟨(s.memory.event b).timeout, ?_, ?_⟩
      · rcases List.mem_cons.mp ha with rfl | ha
        · exact le_rfl
        · exact (List.pairwise_cons.mp hinv.lists.sorted).1 a ha
      · rw [hwait, calcNextTimeout, List.head?_cons, Option.getD_some, if_neg hb, timercmp_gt,
          remaining]
        simp

/-- The pipe is empty and nobody is about to write to it, so the set has both descriptors, and
    the time to wait is that to the second timer. -/
theorem no_lost_wakeup_sample : ∃ rfds since,
    sampleWaitingAgain.turn = .waiting rfds 6 (some ⟨0, 90⟩) since ∧
      ¬ Notified sampleWaitingAgain ∧ (rfds 3 = true ∧ (3 : ℤ) < 6) ∧
      (∀ i a, sampleWaitingAgain.memory.watchTable i = some a →
        rfds (sampleWaitingAgain.memory.event a).fd = true ∧
          (sampleWaitingAgain.memory.event a).fd < 6) ∧
      (∃ i, sampleWaitingAgain.memory.watchTable i = some (.event 3)) ∧
      ∃ timers, Circle sampleWaitingAgain.memory.links .timerList timers ∧
        ∀ a ∈ timers, ∃ d ≤ (sampleWaitingAgain.memory.event a).timeout,
          some ⟨0, 90⟩ = some (remaining d since) := by
  have hnone : ¬ Notified sampleWaitingAgain := by
    rintro (h | h)
    · exact absurd h (by decide)
    · exact absurd h (by decide)
  obtain ⟨hwake, hloop⟩ := no_lost_wakeup ⟨by decide, by decide⟩ reach_sampleWaitingAgain rfl
  obtain ⟨hwatched, htimers⟩ := hloop.resolve_left hnone
  exact ⟨_, _, rfl, hnone, hwake, hwatched, ⟨1, rfl⟩, htimers⟩

/-- While the callbacks are called, each call takes the first pending event away. -/
theorem Inv.step_firing (h : Inv wakeFd s timers pending) (hfiring : Firing s) {i : Input}
    {fuel : ℕ} (hlegal : Legal s i) (hs : s.step fuel i = some s') :
    ∃ timers' pending', Inv wakeFd s' timers' pending' ∧
      s'.called ++ pending'.map (callOf s'.memory) =
        s.called ++ pending.map (callOf s.memory) := by
  by_cases hclient : ∀ result, i ≠ .loop result
  · obtain ⟨fuel', t, timers', ht, hinv, hcalled, hcalls⟩ := h.client hlegal hclient
    rw [State.step_unique hs ht]
    exact ⟨timers', pending, hinv, by rw [hcalled, hcalls]⟩
  · obtain ⟨result, rfl⟩ := not_forall_not.mp hclient
    obtain ⟨ev, hturn⟩ := hfiring
    have hs : s.turnOn fuel result = some s' := hs
    cases pending with
    | nil =>
      obtain ⟨hev, hinv⟩ := h.fired hturn
      rw [State.turnOn.eq_def, hturn, hev] at hs
      obtain rfl := Option.some.inj hs
      exact ⟨timers, [], hinv, rfl⟩
    | cons a pending =>
      obtain ⟨rfl, hne, m, next, hm, hevent, hinv⟩ := h.fire hturn
      rw [State.turnOn_firing hturn hne, hm] at hs
      obtain rfl := Option.some.inj hs
      refine ⟨timers, pending, hinv, ?_⟩
      have hcalls : callOf m = callOf s.memory := by
        funext b
        rw [callOf, callOf, hevent]
      show s.called ++ [callOf m ev] ++ pending.map (callOf m) = _
      rw [hcalls, List.append_assoc]
      rfl

/-- Of the events that `select` reported, every one still watched is called once, after the
    expired timers and before the loop comes to its next turn. -/
theorem ready_called {memory : Memory} {now : Timeval} (hfd : 0 ≤ wakeFd ∧ wakeFd < FD_SETSIZE)
    (h : Reach Always (start memory wakeFd now) s) {fds : List ℤ} (hturn : s.turn = .expired fds)
    {fuel : ℕ} {result : Select} {s₁ s₂ : State} (hs₁ : s.step fuel (.loop result) = some s₁)
    (hrun : Reach Firing s₁ s₂) (htop : s₂.turn = .top) :
    ∃ expired, Circle s.memory.links .pendingList expired ∧
      s₂.called = s.called ++
        (expired ++ readyEvents s.memory fun fd => decide (fd ∈ fds)).map (callOf s.memory) := by
  obtain ⟨timers, pending, hinv⟩ := h.inv hfd
  obtain ⟨m, ev, hm, hev, hkept, hinv₁⟩ := hinv.firing hturn
  have hs₁ : s.turnOn fuel result = some s₁ := hs₁
  rw [State.turnOn_expired hturn, hm, Option.bind_some, hev] at hs₁
  obtain rfl := Option.some.inj hs₁
  refine ⟨pending, hinv.lists.pendingCircle, ?_⟩
  have hcalls : callOf m = callOf s.memory := by
    funext b
    rw [callOf, callOf, hkept.fd, hkept.timeout]
  have hkeep : ∃ timers' pending', Inv wakeFd s₂ timers' pending' ∧
      s₂.called ++ pending'.map (callOf s₂.memory) = s.called ++
        (pending ++ readyEvents s.memory fun fd => decide (fd ∈ fds)).map (callOf m) := by
    clear htop
    induction hrun with
    | refl => exact ⟨timers, _, hinv₁, rfl⟩
    | tail _ hstep ih =>
      obtain ⟨timers', pending', hinv', heq⟩ := ih
      obtain ⟨i, fuel', hlegal, hfiring, hs'⟩ := hstep
      obtain ⟨timers'', pending'', hinv'', heq'⟩ := hinv'.step_firing hfiring hlegal hs'
      exact ⟨timers'', pending'', hinv'', heq'.trans heq⟩
  obtain ⟨timers', pending', hinv', heq⟩ := hkeep
  have hqueue := hinv'.queue
  rw [htop] at hqueue
  obtain rfl : pending' = [] := hqueue
  rw [List.map_nil, List.append_nil, hcalls] at heq
  exact heq

theorem ready_called_sample : ∃ expired,
    Circle sampleExpired.memory.links .pendingList expired ∧
      sampleTop.called = sampleExpired.called ++
        (expired ++ readyEvents sampleExpired.memory fun fd => decide (fd ∈ [(3 : ℤ)])).map
          (callOf sampleExpired.memory) :=
  have hstep : sampleExpired.step 3 (.loop .failed) = some sampleFiring := rfl
  ready_called ⟨by decide, by decide⟩ reach_sampleExpired rfl hstep reach_sampleTop rfl

end Pro5Android.Ril
