import Pro5Android.Flinger.MixerThread
import Pro5Android.Lib.Queue

/-!
# No re-evaluation is lost

Requests for a re-evaluation come from any thread, under the thread's lock. At most one
event stands for all of them; it is taken from the queue and processed by the playback
thread. The force of a request is in the text of the event, which is frozen when the
event is queued, and in a flag, which later requests can still raise.

Other events are queued and processed in between. What processing them does to the
rate, to standby and to the output stream is arbitrary, and the playback thread enters
and leaves standby when it likes.

Results:
* `eventQueue`: the events as a queue.
* `RecomputeInv.next`: what every step preserves.
* `reopens_of_force`: what a forced event does.
* `recompute_coalesced`: the guarantees, for every run.
-/

namespace Pro5Android.Flinger

open Lib Lib.System

/-! ## The playback thread -/

/-- The thread's members, and the event that is taken from the queue and not processed
    yet. -/
structure Playback where
  thread : MixerThread
  taken : Option ConfigEvent

/-- A step of a requester or of the playback thread. -/
inductive Move
  | request (forceReopen : Bool)
  /-- Another event is queued. -/
  | send
  /-- The playback thread enters or leaves standby. -/
  | loop (standby : Bool)
  | take
  | process (e : Surroundings)
  | processOther (sampleRate : ℕ) (standby : Bool) (calls : List StreamCall)

namespace Playback

/-- The event in hand and the queued ones. -/
def events (s : Playback) : List ConfigEvent := s.taken.toList ++ s.thread.configEvents

/-- An event is taken when none is in hand, and processed as what it is. -/
def Legal (s : Playback) : Move → Prop
  | .take => s.taken = none ∧ s.thread.configEvents ≠ []
  | .process _ => ∃ value, s.taken = some (.m86HifiRecompute value)
  | .processOther _ _ _ => s.taken = some .other
  | _ => True

/-- What a step does. -/
def next (stream : StreamOut) (s : Playback) : Move → Playback
  | .request forceReopen => { s with thread := s.thread.requestM86HifiRecompute forceReopen }
  | .send => { s with thread := s.thread.sendConfigEvent .other }
  | .loop standby => { s with thread := { s.thread with standby := standby } }
  | .take =>
    { thread := { s.thread with configEvents := s.thread.configEvents.tail }
      taken := s.thread.configEvents.head? }
  | .process e =>
    match s.taken with
    | some (.m86HifiRecompute value) =>
      { thread := (s.thread.checkForNewParameter stream value e).2.2, taken := none }
    | _ => s
  | .processOther sampleRate standby calls =>
    { thread := { s.thread with sampleRate := sampleRate, standby := standby, calls := calls }
      taken := none }

/-- A thread that is constructed. -/
def start (type : ThreadType) (sampleRate : ℕ) : Playback := ⟨.start type sampleRate, none⟩

end Playback

/-- The playback thread among its requesters. -/
def playback (stream : StreamOut) : System Playback Move where
  legal := Playback.Legal
  next := Playback.next stream

/-- Whether a forced reopen was requested since a re-evaluation was processed; threads
    of another type drop requests. -/
def recordForced (s : Playback) (move : Move) (forced : Bool) : Bool :=
  match move with
  | .request forceReopen => forced || (forceReopen && s.thread.type == .mixer)
  | .process _ => false
  | _ => forced

/-- A re-evaluation that does not stop short: an output that plays is closed, and then
    the desired parameters are set. -/
def Reopens (t t' : MixerThread) (e : Surroundings) : Prop :=
  ∃ status newer, t'.calls = newer ++ .setParameters (t.desired e) status ::
    (if t.standby then t.calls else .standby :: t.calls)

/-! ## What an event does -/

section

open MixerThread

variable {stream : StreamOut} {value : ℤ} {e : Surroundings} {t : MixerThread}

/-- The event that tells of a change of the output. -/
def announced (stream : StreamOut) (value : ℤ) (e : Surroundings) (t : MixerThread) :
    List ConfigEvent :=
  if (t.checkForNewParameter stream value e).1 = noError ∧
      (t.checkForNewParameter stream value e).2.1 = true then [.other] else []

/-- What becomes of the flags and the queue. -/
theorem checkForNewParameter_queue (stream : StreamOut) (value : ℤ) (e : Surroundings)
    (t : MixerThread) :
    let t' := (t.checkForNewParameter stream value e).2.2
    t'.type = t.type ∧ t'.m86HifiRecomputeQueued = false ∧ t'.m86HifiForceReopenQueued = false ∧
      t'.configEvents = t.configEvents ++ announced stream value e t := by
  dsimp only
  unfold announced
  obtain ⟨-, -, heq⟩ | ⟨status, p, t', happly, hresult⟩ :=
    checkForNewParameter_cases stream value e t
  · rw [heq]
    exact ⟨rfl, rfl, rfl, (List.append_nil _).symm⟩
  · have hcalled := called_applyDesired stream (t.desired e)
      (t.clearQueued.closeForReopen (t.forceReopen value))
    rw [happly] at hcalled
    obtain ⟨_, _, ht'⟩ :=
      (onlyOutput_closeForReopen (t.forceReopen value) t.clearQueued).trans hcalled.onlyOutput
    dsimp only at ht'
    obtain ⟨-, heq⟩ | ⟨hstatus, heq⟩ := hresult
    · rw [heq, ht', if_pos ⟨rfl, rfl⟩]
      exact ⟨rfl, rfl, rfl, rfl⟩
    · rw [heq, ht', if_neg fun h => hstatus h.1]
      exact ⟨rfl, rfl, rfl, (List.append_nil _).symm⟩

/-- **A forced event** is acted on. -/
theorem reopens_of_force (hforce : t.forceReopen value = true) :
    Reopens t (t.checkForNewParameter stream value e).2.2 e := by
  obtain ⟨hnot, -, -⟩ | ⟨status, p, t', happly, hresult⟩ :=
    checkForNewParameter_cases stream value e t
  · rw [hforce] at hnot
    cases hnot
  · obtain ⟨status', newer, hcalls⟩ := calls_applyDesired stream (t.desired e)
      (t.clearQueued.closeForReopen (t.forceReopen value))
    have hclosed : (t.clearQueued.closeForReopen (t.forceReopen value)).calls =
        if t.standby then t.calls else .standby :: t.calls := by
      rw [hforce]
      exact calls_closeForReopen t.clearQueued
    rw [happly, hclosed] at hcalls
    refine ⟨status', newer, ?_⟩
    obtain ⟨-, heq⟩ | ⟨-, heq⟩ := hresult
    · rw [heq]
      exact hcalls
    · rw [heq]
      exact hcalls

end

/-! ## The queue -/

namespace Playback

variable {stream : StreamOut} {s : Playback}

/-- What a request queues. -/
def requested (s : Playback) (forceReopen : Bool) : List ConfigEvent :=
  if s.thread.type = .mixer ∧ s.thread.m86HifiRecomputeQueued = false then
    [.m86HifiRecompute (if forceReopen then 2 else 1)]
  else []

/-- What a step queues. -/
def added (stream : StreamOut) (s : Playback) : Move → List ConfigEvent
  | .request forceReopen => s.requested forceReopen
  | .send => [.other]
  | .process e =>
    match s.taken with
    | some (.m86HifiRecompute value) => announced stream value e s.thread
    | _ => []
  | _ => []

/-- What a step has done with. -/
def processed (s : Playback) : Move → List ConfigEvent
  | .process _ => s.taken.toList
  | .processOther _ _ _ => s.taken.toList
  | _ => []

theorem events_request (forceReopen : Bool) :
    (s.next stream (.request forceReopen)).events = s.events ++ s.requested forceReopen := by
  show s.taken.toList ++ (s.thread.requestM86HifiRecompute forceReopen).configEvents =
    (s.taken.toList ++ s.thread.configEvents) ++ s.requested forceReopen
  obtain ⟨htype, heq⟩ | ⟨-, hqueued, heq⟩ | ⟨htype, hqueued, heq⟩ :=
    MixerThread.requestM86HifiRecompute_cases forceReopen s.thread
  · have hnone : s.requested forceReopen = [] := if_neg fun h => htype h.1
    rw [heq, hnone, List.append_nil]
  · have hnone : s.requested forceReopen = [] :=
      if_neg fun h => Bool.false_ne_true (h.2.symm.trans hqueued)
    rw [heq, hnone, List.append_nil]
  · have hone : s.requested forceReopen =
        [.m86HifiRecompute (if forceReopen then 2 else 1)] := if_pos ⟨htype, hqueued⟩
    rw [heq, hone, List.append_assoc]

/-- **Events are neither lost nor overtaken.** -/
theorem processed_append {move : Move} (hlegal : s.Legal move) :
    s.processed move ++ (s.next stream move).events = s.events ++ s.added stream move := by
  cases move with
  | request forceReopen => exact events_request forceReopen
  | send =>
    show s.taken.toList ++ (s.thread.configEvents ++ [.other]) =
      (s.taken.toList ++ s.thread.configEvents) ++ [.other]
    rw [List.append_assoc]
  | loop standby => exact (List.append_nil _).symm
  | take =>
    obtain ⟨htaken, hne⟩ := hlegal
    show s.thread.configEvents.head?.toList ++ s.thread.configEvents.tail =
      (s.taken.toList ++ s.thread.configEvents) ++ []
    rw [htaken, List.append_nil]
    cases hevents : s.thread.configEvents with
    | nil => exact absurd hevents hne
    | cons event rest => rfl
  | process e =>
    obtain ⟨value, htaken⟩ := hlegal
    have hqueue := (checkForNewParameter_queue stream value e s.thread).2.2.2
    unfold processed added events next
    rw [htaken]
    exact congrArg (_ :: ·) hqueue
  | processOther sampleRate standby calls =>
    show s.taken.toList ++ s.thread.configEvents = (s.taken.toList ++ s.thread.configEvents) ++ []
    rw [List.append_nil]

end Playback

/-- The events of the playback thread as a queue. -/
def eventQueue (stream : StreamOut) : Queue (playback stream) ConfigEvent where
  events := Playback.events
  added := Playback.added stream
  removed := Playback.processed
  conserved := Playback.processed_append

/-! ## The invariant -/

/-- One event is queued or in hand while the flag says so, and none otherwise; a forced
    request since the last re-evaluation has left its flag. -/
structure RecomputeInv (s : Playback × Bool) : Prop where
  queued : s.1.events.countP ConfigEvent.isRecompute =
    if s.1.thread.m86HifiRecomputeQueued then 1 else 0
  forced : s.2 = true → s.1.thread.m86HifiForceReopenQueued = true
  typed : s.1.thread.type ≠ .mixer → s.1.thread.m86HifiRecomputeQueued = false

theorem recomputeInv_start (type : ThreadType) (sampleRate : ℕ) :
    RecomputeInv (.start type sampleRate, false) :=
  ⟨rfl, fun h => absurd h Bool.false_ne_true, fun _ => rfl⟩

section

variable {stream : StreamOut} {s : Playback} {forced : Bool}

/-- A step changes the number of re-evaluations by what it queues and has done with. -/
theorem countP_next (stream : StreamOut) {move : Move} (hlegal : s.Legal move) :
    (s.processed move).countP ConfigEvent.isRecompute +
        (s.next stream move).events.countP ConfigEvent.isRecompute =
      s.events.countP ConfigEvent.isRecompute +
        (s.added stream move).countP ConfigEvent.isRecompute := by
  rw [← List.countP_append, ← List.countP_append, Playback.processed_append hlegal]

theorem countP_announced (value : ℤ) (e : Surroundings) (t : MixerThread) :
    (announced stream value e t).countP ConfigEvent.isRecompute = 0 := by
  unfold announced
  split_ifs <;> rfl

/-- A forced request to a mixer leaves its flag. -/
theorem forced_request {force : Bool} {thread : MixerThread} (htype : s.thread.type = .mixer)
    (hforced : forced = true → s.thread.m86HifiForceReopenQueued = true)
    (hflag : thread.m86HifiForceReopenQueued = (s.thread.m86HifiForceReopenQueued || force))
    (h : recordForced s (.request force) forced = true) :
    thread.m86HifiForceReopenQueued = true := by
  dsimp only [recordForced] at h
  rw [htype, beq_self_eq_true, Bool.and_true, Bool.or_eq_true] at h
  rw [hflag, Bool.or_eq_true]
  exact h.imp_left hforced

theorem RecomputeInv.request (stream : StreamOut) (hi : RecomputeInv (s, forced)) (force : Bool) :
    RecomputeInv (s.next stream (.request force), recordForced s (.request force) forced) := by
  obtain ⟨hqueued, hforced, htyped⟩ := hi
  dsimp only at hqueued hforced htyped
  have hcount : (s.next stream (.request force)).events.countP ConfigEvent.isRecompute =
      s.events.countP ConfigEvent.isRecompute +
        (s.requested force).countP ConfigEvent.isRecompute := by
    rw [Playback.events_request, List.countP_append]
  have hthread : (s.next stream (.request force)).thread =
      s.thread.requestM86HifiRecompute force := rfl
  obtain ⟨htype, heq⟩ | ⟨htype, hset, heq⟩ | ⟨htype, hset, heq⟩ :=
    MixerThread.requestM86HifiRecompute_cases force s.thread
  · -- a thread of another type
    have hnone : s.requested force = [] := if_neg fun h => htype h.1
    rw [heq] at hthread
    refine ⟨?_, fun h => ?_, fun _ => ?_⟩
    · dsimp only
      rw [hcount, hnone, hthread]
      exact hqueued
    · have hdropped : (s.thread.type == ThreadType.mixer) = false := beq_eq_false_iff_ne.mpr htype
      dsimp only [recordForced] at h ⊢
      rw [hdropped, Bool.and_false, Bool.or_false] at h
      rw [hthread]
      exact hforced h
    · dsimp only
      rw [hthread]
      exact htyped htype
  · -- an event is queued
    have hnone : s.requested force = [] :=
      if_neg fun h => Bool.false_ne_true (h.2.symm.trans hset)
    rw [heq] at hthread
    refine ⟨?_, fun h => ?_, fun h => ?_⟩
    · dsimp only
      rw [hcount, hnone, hthread]
      exact hqueued
    · dsimp only
      rw [hthread]
      exact forced_request htype hforced rfl h
    · dsimp only at h
      rw [hthread] at h
      exact absurd htype h
  · -- the request queues the event
    have hone : s.requested force = [.m86HifiRecompute (if force then 2 else 1)] :=
      if_pos ⟨htype, hset⟩
    rw [hset] at hqueued
    rw [heq] at hthread
    refine ⟨?_, fun h => ?_, fun h => ?_⟩
    · dsimp only
      rw [hcount, hone, hthread, hqueued]
      rfl
    · dsimp only
      rw [hthread]
      exact forced_request htype hforced rfl h
    · dsimp only at h
      rw [hthread] at h
      exact absurd htype h

theorem thread_process {value : ℤ} (htaken : s.taken = some (.m86HifiRecompute value))
    (e : Surroundings) : (s.next stream (.process e)).thread =
      (s.thread.checkForNewParameter stream value e).2.2 := by
  unfold Playback.next
  rw [htaken]

theorem RecomputeInv.process (hi : RecomputeInv (s, forced)) {value : ℤ}
    (htaken : s.taken = some (.m86HifiRecompute value)) (e : Surroundings) :
    RecomputeInv (s.next stream (.process e), recordForced s (.process e) forced) := by
  have hthread : (s.next stream (.process e)).thread =
      (s.thread.checkForNewParameter stream value e).2.2 := thread_process htaken e
  have hcount := countP_next stream (show s.Legal (.process e) from ⟨value, htaken⟩)
  obtain ⟨htype, hcleared, -, -⟩ := checkForNewParameter_queue stream value e s.thread
  have hadded : (s.added stream (.process e)).countP ConfigEvent.isRecompute = 0 := by
    unfold Playback.added
    rw [htaken]
    exact countP_announced value e s.thread
  have hdone : (s.processed (.process e)).countP ConfigEvent.isRecompute = 1 := by
    unfold Playback.processed
    rw [htaken]
    rfl
  have hle : s.events.countP ConfigEvent.isRecompute ≤ 1 := by
    have hqueued := hi.queued
    dsimp only at hqueued
    rw [hqueued]
    split_ifs <;> decide
  refine ⟨?_, fun h => absurd h Bool.false_ne_true, fun _ => ?_⟩
  · dsimp only
    rw [hthread, hcleared, if_neg Bool.false_ne_true]
    omega
  · dsimp only
    rw [hthread]
    exact hcleared

/-- A step that queues and ends no re-evaluation and leaves the flags. -/
theorem RecomputeInv.of_same (hi : RecomputeInv (s, forced)) {move : Move}
    (hlegal : s.Legal move)
    (hadded : (s.added stream move).countP ConfigEvent.isRecompute = 0)
    (hdone : (s.processed move).countP ConfigEvent.isRecompute = 0)
    (hflags : (s.next stream move).thread.m86HifiRecomputeQueued = s.thread.m86HifiRecomputeQueued ∧
      (s.next stream move).thread.m86HifiForceReopenQueued = s.thread.m86HifiForceReopenQueued ∧
      (s.next stream move).thread.type = s.thread.type) :
    RecomputeInv (s.next stream move, forced) := by
  obtain ⟨hqueued, hforced, htyped⟩ := hi
  obtain ⟨hsame, hsame', htype⟩ := hflags
  dsimp only at hqueued hforced htyped
  have hcount := countP_next stream hlegal
  refine ⟨?_, ?_, ?_⟩
  · dsimp only
    rw [hsame]
    omega
  · dsimp only
    rw [hsame']
    exact hforced
  · dsimp only
    rw [hsame, htype]
    exact htyped

/-- **Every step keeps the invariant.** -/
theorem RecomputeInv.next (hi : RecomputeInv (s, forced)) {move : Move} (hlegal : s.Legal move) :
    RecomputeInv (s.next stream move, recordForced s move forced) := by
  cases move with
  | request force => exact hi.request stream force
  | send => exact hi.of_same trivial rfl rfl ⟨rfl, rfl, rfl⟩
  | loop standby => exact hi.of_same trivial rfl rfl ⟨rfl, rfl, rfl⟩
  | take => exact hi.of_same hlegal rfl rfl ⟨rfl, rfl, rfl⟩
  | process e =>
    obtain ⟨value, htaken⟩ := hlegal
    exact hi.process htaken e
  | processOther sampleRate standby calls =>
    refine hi.of_same hlegal rfl ?_ ⟨rfl, rfl, rfl⟩
    have htaken : s.taken = some .other := hlegal
    unfold Playback.processed
    rw [htaken]
    rfl

/-- After a request of a mixer thread an event is queued or in hand. -/
theorem RecomputeInv.pending (stream : StreamOut) (hi : RecomputeInv (s, forced))
    (htype : s.thread.type = .mixer)
    (force : Bool) :
    ∃ event ∈ (s.next stream (.request force)).events, event.isRecompute = true := by
  have hqueued := (hi.request stream force).queued
  have hflag : (s.thread.requestM86HifiRecompute force).m86HifiRecomputeQueued = true := by
    obtain ⟨hother, -⟩ | ⟨-, hset, heq⟩ | ⟨-, -, heq⟩ :=
      MixerThread.requestM86HifiRecompute_cases force s.thread
    · exact absurd htype hother
    · rw [heq]
      exact hset
    · rw [heq]
  have hthread : (s.next stream (.request force)).thread =
      s.thread.requestM86HifiRecompute force := rfl
  dsimp only at hqueued
  rw [hthread, hflag, if_pos rfl] at hqueued
  apply List.countP_pos_iff.mp
  omega

/-- The flag of a forced reopen goes down in the step that acts on it. -/
theorem reopens_of_cleared {move : Move} (hlegal : s.Legal move)
    (hset : s.thread.m86HifiForceReopenQueued = true)
    (hcleared : (s.next stream move).thread.m86HifiForceReopenQueued = false) :
    ∃ e, move = .process e ∧ Reopens s.thread (s.next stream move).thread e := by
  cases move with
  | request force =>
    have hthread : (s.next stream (.request force)).thread =
        s.thread.requestM86HifiRecompute force := rfl
    have hkept : (s.thread.requestM86HifiRecompute force).m86HifiForceReopenQueued = true := by
      obtain ⟨-, heq⟩ | ⟨-, -, heq⟩ | ⟨-, -, heq⟩ :=
        MixerThread.requestM86HifiRecompute_cases force s.thread
      · rw [heq, hset]
      · rw [heq, hset, Bool.true_or]
      · rw [heq, hset, Bool.true_or]
    rw [hthread, hkept] at hcleared
    cases hcleared
  | process e =>
    obtain ⟨value, htaken⟩ := hlegal
    refine ⟨e, rfl, ?_⟩
    rw [thread_process htaken]
    apply reopens_of_force
    rw [MixerThread.forceReopen, hset, Bool.or_true]
  | send => exact absurd (hset.symm.trans hcleared) (by decide)
  | loop standby => exact absurd (hset.symm.trans hcleared) (by decide)
  | take => exact absurd (hset.symm.trans hcleared) (by decide)
  | processOther sampleRate standby calls =>
    exact absurd (hset.symm.trans hcleared) (by decide)

end

/-- The playback thread can go on while an event waits. -/
theorem exists_legal_of_events (s : Playback) (h : s.events ≠ []) (e : Surroundings) :
    s.Legal .take ∨ s.Legal (.process e) ∨ ∀ sampleRate standby calls,
      s.Legal (.processOther sampleRate standby calls) := by
  cases htaken : s.taken with
  | none =>
    refine .inl ⟨htaken, fun hnil => h ?_⟩
    rw [Playback.events, htaken, hnil]
    rfl
  | some event =>
    cases event with
    | m86HifiRecompute value => exact .inr (.inl ⟨value, htaken⟩)
    | other => exact .inr (.inr fun _ _ _ => htaken)

/-- **No request is lost**, in every run of the playback thread and its requesters:
    at most one re-evaluation is queued or in hand; once as many events have been
    processed after a request as waited then, a re-evaluation was among them; a
    re-evaluation reopens the output if that was requested since the one before; and the
    flag of a forced reopen goes down only in a re-evaluation that reopens. -/
theorem recompute_coalesced {stream : StreamOut} {type : ThreadType} {sampleRate : ℕ}
    {s : Playback} {forced : Bool}
    (hrun : ((playback stream).observed recordForced).Reach AnyInput
      (.start type sampleRate, false) (s, forced)) :
    s.events.countP ConfigEvent.isRecompute ≤ 1 ∧
    (s.thread.type = .mixer → ∀ (force : Bool) (moves : List Move),
      let s' := s.next stream (.request force)
      (playback stream).Allowed AnyInput s' moves →
      s'.events.length ≤ ((eventQueue stream).removedAll s' moves).length →
      ∃ event ∈ (eventQueue stream).removedAll s' moves, event.isRecompute = true) ∧
    (∀ value e, s.taken = some (.m86HifiRecompute value) → forced = true →
      Reopens s.thread (s.next stream (.process e)).thread e) ∧
    ∀ move, s.Legal move → s.thread.m86HifiForceReopenQueued = true →
      (s.next stream move).thread.m86HifiForceReopenQueued = false →
      ∃ e, move = .process e ∧ Reopens s.thread (s.next stream move).thread e := by
  have hi : RecomputeInv (s, forced) :=
    hrun.invariant RecomputeInv (recomputeInv_start type sampleRate)
      fun hlegal _ hi => hi.next hlegal
  refine ⟨?_, ?_, ?_, ?_⟩
  · have hqueued := hi.queued
    dsimp only at hqueued
    rw [hqueued]
    split_ifs <;> decide
  · intro htype force moves s' hallowed hlen
    obtain ⟨event, hevent, hrecompute⟩ := hi.pending stream htype force
    exact ⟨event, (eventQueue stream).served hallowed hlen hevent, hrecompute⟩
  · intro value e htaken hforced
    have hset : s.thread.m86HifiForceReopenQueued = true := hi.forced hforced
    rw [thread_process htaken]
    apply reopens_of_force
    rw [MixerThread.forceReopen, hset, Bool.or_true]
  · intro move hlegal hset hcleared
    exact reopens_of_cleared hlegal hset hcleared

/-- Two requests, the second one forced, share an event that is frozen unforced. -/
theorem recompute_coalesced_forced :
    let stream : StreamOut := fun _ _ => noError
    let e : Surroundings := ⟨true, true, []⟩
    let s := (((playback stream).observed recordForced).after (.start .mixer 48000, false)
      [.request false, .request true, .take]).1
    s.taken = some (.m86HifiRecompute 1) ∧ s.events.countP ConfigEvent.isRecompute ≤ 1 ∧
      (∃ event ∈ (eventQueue stream).removedAll (s.next stream (.request true)) [.process e],
        event.isRecompute = true) ∧
      Reopens s.thread (s.next stream (.process e)).thread e ∧
      ∃ e', Move.process e = .process e' ∧
        Reopens s.thread (s.next stream (.process e)).thread e' := by
  intro stream e s
  have hallowed : ((playback stream).observed recordForced).Allowed AnyInput
      (.start .mixer 48000, false) [.request false, .request true, .take] :=
    ⟨trivial, trivial, trivial, trivial, ⟨rfl, List.cons_ne_nil _ _⟩, trivial, trivial⟩
  have hlegal : s.Legal (.process e) := ⟨1, rfl⟩
  obtain ⟨hcount, hfollowed, hforced, hcleared⟩ := recompute_coalesced (reach_after hallowed)
  exact ⟨rfl, hcount, hfollowed rfl true [.process e] ⟨⟨1, rfl⟩, trivial, trivial⟩ (Nat.le_refl _),
    hforced 1 e rfl rfl, hcleared _ hlegal rfl rfl⟩

end Pro5Android.Flinger
