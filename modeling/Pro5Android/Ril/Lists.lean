import Mathlib.Data.List.TakeWhile
import Pro5Android.Ril.Event

/-!
# The lists of events

What the functions of the event module do to the list of timers and the list of what is
to be called, `timers` and `pending`. The events a client has set are `known`; the two
sentinels are not among them.

* `Lists.processTimeouts`: the timers whose deadline is over become pending, in their order.
* `Lists.ril_timer_add`: a timer is inserted where the list stays sorted.
-/

namespace Pro5Android.Ril

open Lib (Links Loop Circle)

structure Lists (s : Memory) (known : Addr → Bool) (timers pending : List Addr) : Prop where
  timerCircle : Circle s.links .timerList timers
  pendingCircle : Circle s.links .pendingList pending
  clients : known .timerList = false ∧ known .pendingList = false
  disjoint : ∀ a ∈ timers, a ∉ pending
  timers_known : ∀ a ∈ timers, known a = true
  pending_known : ∀ a ∈ pending, known a = true
  sorted : timers.Pairwise fun a b => (s.event a).timeout ≤ (s.event b).timeout
  timer_fd : ∀ a ∈ timers, (s.event a).fd = -1

namespace Lists

variable {s : Memory} {known : Addr → Bool} {timers pending xs ys : List Addr} {a : Addr}

theorem ne_sentinel (h : Lists s known timers pending) (ha : known a = true) :
    a ≠ .timerList ∧ a ≠ .pendingList := by
  constructor
  · rintro rfl
    exact absurd (ha.symm.trans h.clients.1) (by decide)
  · rintro rfl
    exact absurd (ha.symm.trans h.clients.2) (by decide)

theorem pendingList_notMem (h : Lists s known timers pending) : .pendingList ∉ timers :=
  fun hmem => (h.ne_sentinel (h.timers_known _ hmem)).2 rfl

theorem timerList_notMem (h : Lists s known timers pending) : .timerList ∉ pending :=
  fun hmem => (h.ne_sentinel (h.pending_known _ hmem)).1 rfl

/-- The lists do not depend on the other fields, except for the timers' deadlines. -/
theorem congr (h : Lists s known timers pending) {s' : Memory} {known' : Addr → Bool}
    (hlinks : ∀ a ∈ .timerList :: .pendingList :: (timers ++ pending), s'.links a = s.links a)
    (hevent : ∀ a ∈ timers, (s'.event a).timeout = (s.event a).timeout ∧
      (s'.event a).fd = (s.event a).fd)
    (hclients : known' .timerList = false ∧ known' .pendingList = false)
    (hknown : ∀ a, known a = true → known' a = true) : Lists s' known' timers pending where
  timerCircle := h.timerCircle.frame fun a ha => hlinks a (by grind)
  pendingCircle := h.pendingCircle.frame fun a ha => hlinks a (by grind)
  clients := hclients
  disjoint := h.disjoint
  timers_known a ha := hknown a (h.timers_known a ha)
  pending_known a ha := hknown a (h.pending_known a ha)
  sorted := h.sorted.imp_of_mem fun ha hb hab => by rwa [(hevent _ ha).1, (hevent _ hb).1]
  timer_fd a ha := by rw [(hevent a ha).2, h.timer_fd a ha]

/-- An event that is in no list becomes the last pending one. -/
theorem addPending (h : Lists s known timers pending) (ha : known a = true) (htimer : a ∉ timers)
    (hpending : a ∉ pending) : ∃ l, addToList s a .pendingList = some { s with links := l } ∧
      Lists { s with links := l } known timers (pending ++ [a]) := by
  obtain ⟨hne, hne'⟩ := h.ne_sentinel ha
  have hcircle : Circle s.links .pendingList (pending ++ []) := by
    rw [List.append_nil]
    exact h.pendingCircle
  have hnew : a ∉ Addr.pendingList :: (pending ++ []) := by simp [hne', hpending]
  obtain ⟨l, hl, hnew, hsame⟩ := hcircle.addToList hnew
  refine ⟨l, ?_, { h with
    timerCircle := h.timerCircle.frame fun b hb => hsame b ?_
    pendingCircle := hnew
    disjoint := fun b hb => ?_
    pending_known := fun b hb => ?_ }⟩
  · rw [addToList]
    exact congrArg (Option.map _) hl
  · have := h.disjoint b
    have := h.pendingList_notMem
    have := h.timerList_notMem
    grind
  · have := h.disjoint b hb
    grind
  · have := h.pending_known b
    grind

/-- The first timer is taken out. -/
theorem removeTimer (h : Lists s known (a :: timers) pending) :
    ∃ l, removeFromList s a = some { s with links := l } ∧
      Lists { s with links := l } known timers pending := by
  have hcircle : Circle s.links .timerList ([] ++ a :: timers) := h.timerCircle
  obtain ⟨l, hl, hnew, hsame⟩ := hcircle.removeFromList
  refine ⟨l, ?_, { h with
    timerCircle := hnew
    pendingCircle := h.pendingCircle.frame fun b hb => hsame b ?_
    disjoint := fun b hb => h.disjoint b (List.mem_cons_of_mem a hb)
    timers_known := fun b hb => h.timers_known b (List.mem_cons_of_mem a hb)
    sorted := (List.pairwise_cons.mp h.sorted).2
    timer_fd := fun b hb => h.timer_fd b (List.mem_cons_of_mem a hb) }⟩
  · rw [removeFromList, hl]
    rfl
  · have := h.disjoint b
    have := h.pendingList_notMem
    have := h.timerList_notMem
    grind

/-- The first pending event is taken out. -/
theorem removePending (h : Lists s known timers (a :: pending)) :
    ∃ l, removeFromList s a = some { s with links := l } ∧
      Lists { s with links := l } known timers pending := by
  have hcircle : Circle s.links .pendingList ([] ++ a :: pending) := h.pendingCircle
  obtain ⟨l, hl, hnew, hsame⟩ := hcircle.removeFromList
  refine ⟨l, ?_, { h with
    timerCircle := h.timerCircle.frame fun b hb => hsame b ?_
    pendingCircle := hnew
    disjoint := fun b hb hmem => h.disjoint b hb (List.mem_cons_of_mem a hmem)
    pending_known := fun b hb => h.pending_known b (List.mem_cons_of_mem a hb) }⟩
  · rw [removeFromList, hl]
    rfl
  · have := h.disjoint b
    have := h.pendingList_notMem
    have := h.timerList_notMem
    grind

/-- A timer is inserted between earlier and later ones. -/
theorem insertTimer (h : Lists s known (xs ++ ys) pending) (ha : known a = true)
    (htimer : a ∉ xs ++ ys) (hpending : a ∉ pending) (hfd : (s.event a).fd = -1)
    (hxs : ∀ b ∈ xs, (s.event b).timeout ≤ (s.event a).timeout)
    (hys : ∀ b ∈ ys, (s.event a).timeout ≤ (s.event b).timeout) :
    ∃ l, addToList s a (ys.head?.getD .timerList) = some { s with links := l } ∧
      Lists { s with links := l } known (xs ++ a :: ys) pending := by
  obtain ⟨hne, hne'⟩ := h.ne_sentinel ha
  have hnew : a ∉ Addr.timerList :: (xs ++ ys) := by simpa [hne] using htimer
  obtain ⟨l, hl, hnew, hsame⟩ := h.timerCircle.addToList hnew
  refine ⟨l, ?_, { h with
    timerCircle := hnew
    pendingCircle := h.pendingCircle.frame fun b hb => hsame b ?_
    disjoint := fun b hb => ?_
    timers_known := fun b hb => ?_
    sorted := ?_
    timer_fd := fun b hb => ?_ }⟩
  · rw [addToList, hl]
    rfl
  · have := h.disjoint b
    have := h.pendingList_notMem
    have := h.timerList_notMem
    grind
  · have := h.disjoint b
    grind
  · have := h.timers_known b
    grind
  · obtain ⟨hsx, hsy, hxy⟩ := List.pairwise_append.mp h.sorted
    refine List.pairwise_append.mpr ⟨hsx, List.pairwise_cons.mpr ⟨hys, hsy⟩, fun b hb c hc => ?_⟩
    rcases List.mem_cons.mp hc with rfl | hc
    · exact hxs b hb
    · exact hxy b hb c hc
  · have := h.timer_fd b
    grind

/-! ## The walks -/

/-- The expired timers are the first ones. -/
def due (s : Memory) (now : Timeval) (a : Addr) : Bool := (s.event a).timeout < now

theorem due_of_mem_takeWhile {now : Timeval} (ha : a ∈ timers.takeWhile (due s now)) :
    (s.event a).timeout < now := by
  simpa [due] using List.mem_takeWhile_imp ha

/-- None of the others is expired. -/
theorem le_of_mem_dropWhile {now : Timeval}
    (hsorted : timers.Pairwise fun a b => (s.event a).timeout ≤ (s.event b).timeout)
    (ha : a ∈ timers.dropWhile (due s now)) : now ≤ (s.event a).timeout := by
  induction timers with
  | nil => exact absurd ha List.not_mem_nil
  | cons b timers ih =>
    obtain ⟨hb, hrest⟩ := List.pairwise_cons.mp hsorted
    cases hdue : due s now b with
    | true =>
      rw [List.dropWhile_cons_of_pos hdue] at ha
      exact ih hrest ha
    | false =>
      rw [List.dropWhile_cons_of_neg (by simp [hdue])] at ha
      have hnow : now ≤ (s.event b).timeout := by simpa [due] using hdue
      rcases List.mem_cons.mp ha with rfl | ha
      · exact hnow
      · exact hnow.trans (hb a ha)

theorem expire_ends (h : Lists s known timers pending) (now : Timeval) :
    ∃ l, (expire now).Ends (s, timers.head?.getD .timerList)
        ({ s with links := l }, (timers.dropWhile (due s now)).head?.getD .timerList) ∧
      Lists { s with links := l } known (timers.dropWhile (due s now))
        (pending ++ timers.takeWhile (due s now)) := by
  induction timers generalizing s pending with
  | nil => exact ⟨s.links, .stop rfl, by simpa using h⟩
  | cons a timers ih =>
    have hmore : (expire now).more (s, a) = due s now a := by
      have ha := (h.ne_sentinel (h.timers_known a List.mem_cons_self)).1
      show (a != .timerList && timercmp now (s.event a).timeout _) = _
      rw [timercmp_gt, due]
      simp [ha]
    cases hdue : due s now a with
    | false =>
      rw [List.dropWhile_cons_of_neg (by simp [hdue]), List.takeWhile_cons_of_neg (by simp [hdue]),
        List.append_nil]
      exact ⟨s.links, .stop (hmore.trans hdue), h⟩
    | true =>
      rw [List.dropWhile_cons_of_pos hdue, List.takeWhile_cons_of_pos hdue]
      obtain ⟨hatimers, -⟩ := List.nodup_cons.mp (List.nodup_cons.mp h.timerCircle.nodup).2
      have hknown := h.timers_known a List.mem_cons_self
      have hcircle : Circle s.links .timerList ([] ++ a :: timers) := h.timerCircle
      obtain ⟨l, hremove, h₁⟩ := h.removeTimer
      obtain ⟨l', hadd, h₂⟩ :=
        h₁.addPending hknown hatimers (h.disjoint a List.mem_cons_self)
      obtain ⟨l'', hends, h₃⟩ := ih h₂
      refine ⟨l'', .step (hmore.trans hdue) ?_ hends, ?_⟩
      · show ((s.links a).next.bind fun next => (removeFromList s a).bind fun s =>
          (addToList s a .pendingList).map fun s => (s, next)) = _
        rw [hcircle.next_member, Option.bind_some, hremove, Option.bind_some, hadd,
          Option.map_some]
      · rw [List.append_assoc] at h₃
        exact h₃

theorem processTimeouts (h : Lists s known timers pending) (now : Timeval) :
    ∃ fuel l, Ril.processTimeouts s fuel now = some { s with links := l } ∧
      Lists { s with links := l } known (timers.dropWhile (due s now))
        (pending ++ timers.takeWhile (due s now)) := by
  obtain ⟨l, hends, hlists⟩ := h.expire_ends now
  obtain ⟨fuel, hfuel⟩ := hends.exists_run
  refine ⟨fuel, l, ?_, hlists⟩
  rw [Ril.processTimeouts, h.timerCircle.next_sentinel, Option.bind_some, hfuel, Option.map_some]

/-- The first timers with earlier deadlines than `a` are walked past. -/
theorem findPlace_ends (hcircle : Circle s.links .timerList (xs ++ ys))
    (hsentinel : .timerList ∉ ys) :
    (findPlace s a).Ends (ys.head?.getD .timerList)
      ((ys.dropWhile (due s (s.event a).timeout)).head?.getD .timerList) := by
  induction ys generalizing xs with
  | nil =>
    refine .stop ?_
    rw [findPlace]
    simp
  | cons y ys ih =>
    have hmore : (findPlace s a).more y = due s (s.event a).timeout y := by
      have hy : y ≠ .timerList := fun hy => hsentinel (hy ▸ List.mem_cons_self)
      show (timercmp (s.event y).timeout (s.event a).timeout _ && y != .timerList) = _
      rw [timercmp_lt, due]
      simp [hy]
    cases hdue : due s (s.event a).timeout y with
    | false =>
      rw [List.dropWhile_cons_of_neg (by simp [hdue])]
      exact .stop (hmore.trans hdue)
    | true =>
      rw [List.dropWhile_cons_of_pos hdue]
      have hcircle' : Circle s.links .timerList ((xs ++ [y]) ++ ys) := by
        rwa [List.append_assoc]
      exact .step (hmore.trans hdue) hcircle.next_member
        (ih hcircle' fun hmem => hsentinel (List.mem_cons_of_mem y hmem))

/-- The memory in which `ril_timer_add` looks for the place. -/
def armed (s : Memory) (a : Addr) (deadline : Timeval) : Memory :=
  { s with event := Function.update s.event a { s.event a with fd := -1, timeout := deadline } }

theorem ril_timer_add (h : Lists s known timers pending) (ha : known a = true)
    (htimer : a ∉ timers) (hpending : a ∉ pending) (now tv : Timeval) :
    ∃ fuel l xs ys, Ril.ril_timer_add s fuel now a (some tv) =
        some { armed s a (timeradd now tv) with links := l } ∧ timers = xs ++ ys ∧
      Lists { armed s a (timeradd now tv) with links := l } known (xs ++ a :: ys) pending := by
  have hother : ∀ b ∈ timers, (armed s a (timeradd now tv)).event b = s.event b := by
    intro b hb
    refine Function.update_of_ne ?_ _ _
    rintro rfl
    exact htimer hb
  have harmed : Lists (armed s a (timeradd now tv)) known timers pending :=
    h.congr (fun _ _ => rfl) (fun b hb => by simp [hother b hb]) h.clients fun _ hb => hb
  generalize hs₁ : armed s a (timeradd now tv) = s₁ at harmed hother
  have hcircle : Circle s₁.links .timerList ([] ++ timers) := harmed.timerCircle
  have hends : (findPlace s₁ a).Ends _ _ :=
    findPlace_ends hcircle (List.nodup_cons.mp h.timerCircle.nodup).1
  obtain ⟨fuel, hfuel⟩ := hends.exists_run
  generalize hbefore : due s₁ (s₁.event a).timeout = before at hfuel
  have hsplit : timers.takeWhile before ++ timers.dropWhile before = timers :=
    List.takeWhile_append_dropWhile
  have hfd : (s₁.event a).fd = -1 := by simp [← hs₁, armed]
  rw [← hsplit] at harmed
  obtain ⟨l, hadd, hlists⟩ := harmed.insertTimer ha (by rwa [hsplit]) hpending hfd
    (fun b hb => (due_of_mem_takeWhile (hbefore ▸ hb)).le)
    fun b hb => le_of_mem_dropWhile (hsplit ▸ harmed.sorted) (hbefore ▸ hb)
  refine ⟨fuel, l, timers.takeWhile before, timers.dropWhile before, ?_, hsplit.symm, hlists⟩
  rw [Ril.ril_timer_add, h.timerCircle.next_sentinel, Option.bind_some]
  show ((findPlace (armed s a (timeradd now tv)) a).run fuel _).bind
    (fun list => addToList (armed s a (timeradd now tv)) a list) = _
  rw [hs₁, hfuel, Option.bind_some, hadd]

end Lists

end Pro5Android.Ril
