import Pro5Android.Graphics.GrallocMaps
import Pro5Android.Lib.Runs

/-!
# Runs of the graphics buffer allocator

The calls of a process come one after the other, on the handles that are alive; the kernel
answers them as it likes. A handle is a copy of `private_handle_t`, known by its number.

Results:
* `descriptors_balanced`: no descriptor is lost or closed twice, and every buffer is as long as
  the mapper takes it to be.
* `mappings_balanced`: no mapping is lost, without the private format.
* `lock_addresses`: what the addresses of a lock point to.
* `ycbcr_planes`: the planes of a flexible buffer are inside it and apart.
-/

namespace Pro5Android.Gralloc

open Lib

/-! ## Calls -/

structure State where
  world : World
  handles : ℕ → Option Handle
  next : ℕ

inductive Op
  | alloc (w h : ℤ) (format : Format) (usage : Usage)
  | register (id : ℕ)
  | unregister (id : ℕ)
  | lock (id : ℕ)
  | free (id : ℕ)

namespace State

def initial : State := ⟨⟨fun _ => none, fun _ => none, 0⟩, fun _ => none, 0⟩

/-- A call left the handle `id` and the world behind. -/
def put (s : State) (id : ℕ) (r : Handle × World) : State :=
  { s with world := r.2, handles := Function.update s.handles id (some r.1) }

/-- A call on a handle that is not alive is not one; `none` where a descriptor is closed that
    is not open. -/
def step (k : Kernel) (afbc : ℤ) (s : State) : Op → Option State
  | .alloc w h format usage =>
    (gralloc_alloc k afbc s.world w h format usage).map fun r =>
      match r.1.hnd with
      | none => { s with world := r.2 }
      | some hnd => ⟨r.2, Function.update s.handles s.next (some hnd), s.next + 1⟩
  | .register id =>
    match s.handles id with
    | none => some s
    | some hnd => some (s.put id (gralloc_register_buffer k s.world hnd).2)
  | .unregister id =>
    match s.handles id with
    | none => some s
    | some hnd => some (s.put id (gralloc_unregister_buffer s.world hnd).2)
  | .lock id =>
    match s.handles id with
    | none => some s
    | some hnd => some (s.put id (gralloc_lock k s.world hnd).2.2)
  | .free id =>
    match s.handles id with
    | none => some s
    | some hnd =>
      (gralloc_free s.world hnd).map fun r =>
        if r.1 = 0 then { s with world := r.2, handles := Function.update s.handles id none }
        else { s with world := r.2 }

/-- What the planes of the handles that are alive hold. -/
def held {α : Type} (s : State) (f : Handle → Plane → Option α) : Place → Option α :=
  fun p => (s.handles p.1).bind fun hnd => f hnd p.2

end State

/-- No side of a picture is longer than `maxDimension`. -/
def Op.Fits : Op → Prop
  | .alloc w h _ _ => w ≤ maxDimension ∧ h ≤ maxDimension
  | _ => True

/-- The calls of a process. -/
def allocator (k : Kernel) (afbc : ℤ) : System State Op where
  legal _ op := op.Fits
  next s op := (s.step k afbc op).getD s

/-- Neither a buffer of the private format, nor the registration of one that is mapped. -/
def Plain (s : State) : Op → Prop
  | .alloc _ _ format _ => format ≠ .exynosYCbCr420SpMPriv
  | .register id => ∀ hnd ∈ s.handles id, hnd.base = 0
  | _ => True

section Held

variable {α : Type} {s : State} {f : Handle → Plane → Option α} {id : ℕ}

theorem held_of_alive {hnd : Handle} (h : s.handles id = some hnd) :
    place (s.held f) id (f hnd) = s.held f :=
  place_eq_self fun plane => by simp [State.held, h]

theorem held_none (h : ∀ id, s.handles id = none) (p : Place) : s.held f p = none := by
  simp [State.held, h]

theorem held_update (w : World) (n : ℕ) (o : Option Handle) :
    State.held ⟨w, Function.update s.handles id o, n⟩ f =
      place (s.held f) id fun plane => o.bind fun hnd => f hnd plane := by
  funext ⟨i, p⟩
  by_cases hi : i = id
  · subst hi
    simp [State.held, place]
  · simp [State.held, place, hi]

theorem held_insert (w : World) (n : ℕ) (hnd : Handle) :
    State.held ⟨w, Function.update s.handles id (some hnd), n⟩ f = place (s.held f) id (f hnd) :=
  held_update w n (some hnd)

theorem held_remove (w : World) (n : ℕ) :
    State.held ⟨w, Function.update s.handles id none, n⟩ f =
      place (s.held f) id fun _ => none :=
  held_update w n none

end Held

section Handles

variable {handles : ℕ → Option Handle} {id : ℕ} {o : Option Handle}

theorem forall_update {P : Handle → Prop} (h : ∀ {i hnd}, handles i = some hnd → P hnd)
    (ho : ∀ hnd, o = some hnd → P hnd) {i : ℕ} {hnd : Handle}
    (hi : Function.update handles id o i = some hnd) : P hnd := by
  by_cases hne : i = id
  · rw [hne, Function.update_self] at hi
    exact ho hnd hi
  · rw [Function.update_of_ne hne] at hi
    exact h hi

theorem fresh_update {n m : ℕ} (h : ∀ i ≥ n, handles i = none) (hid : id < m) (hnm : n ≤ m) :
    ∀ i ≥ m, Function.update handles id o i = none := by
  intro i hi
  rw [Function.update_of_ne (Nat.ne_of_gt (Nat.lt_of_lt_of_le hid hi))]
  exact h i (Nat.le_trans hnm hi)

end Handles

/-! ## Descriptors -/

theorem SameButBases.made {hnd hnd' : Handle} (h : SameButBases hnd hnd') (hm : hnd.Made) :
    hnd'.Made := by
  obtain ⟨b, b1, b2, rfl⟩ := h
  exact ⟨hm.valid, hm.outside, hm.framework⟩

theorem SameButBases.buffer_eq {hnd hnd' : Handle} (h : SameButBases hnd hnd') :
    hnd'.buffer = hnd.buffer := by
  obtain ⟨b, b1, b2, rfl⟩ := h
  rfl

structure Inv (s : State) : Prop where
  descriptors : Owned s.world.fds (s.held Handle.buffer)
  fresh : ∀ id ≥ s.next, s.handles id = none
  made : ∀ {id hnd}, s.handles id = some hnd → hnd.Made

theorem inv_initial : Inv State.initial :=
  ⟨Owned.empty, fun _ _ => rfl, nofun⟩

section Steps

variable {k : Kernel} {afbc : ℤ} {s : State} {id : ℕ} {hnd : Handle}

theorem Inv.next_le (hs : Inv s) (h : s.handles id = some hnd) : id < s.next := by
  by_contra hge
  rw [hs.fresh id (Nat.le_of_not_lt hge)] at h
  cases h

theorem Inv.empty (hs : Inv s) {α : Type} (f : Handle → Plane → Option α) (plane : Plane) :
    s.held f (s.next, plane) = none := by
  simp [State.held, hs.fresh s.next (Nat.le_refl _)]

/-- A call that only maps and unmaps. -/
theorem Inv.put (hs : Inv s) (h : s.handles id = some hnd) {r : Handle × World}
    (hr : Remaps hnd s.world r) : Inv (s.put id r) where
  descriptors := by
    show Owned r.2.fds (State.held ⟨r.2, Function.update s.handles id (some r.1), s.next⟩ _)
    rw [held_insert, hr.fds_eq, hr.same.buffer_eq, held_of_alive h]
    exact hs.descriptors
  fresh := fresh_update hs.fresh (hs.next_le h) (Nat.le_refl _)
  made := forall_update hs.made fun _ hnd' => Option.some.inj hnd' ▸ hr.same.made (hs.made h)

/-- A lock maps a handle that is not mapped, and does nothing else. -/
theorem lock_cases (k : Kernel) (world : World) (hnd : Handle) :
    (gralloc_lock k world hnd).2.2 = (hnd, world) ∨
      hnd.base = 0 ∧ (gralloc_lock k world hnd).2.2 = (gralloc_map k world hnd).2 := by
  rw [gralloc_lock]
  split
  · exact .inl rfl
  split
  · exact .inl rfl
  dsimp only
  split
  · rename_i hbase
    exact .inr ⟨hbase, rfl⟩
  · exact .inl rfl

theorem remaps_lock (k : Kernel) (world : World) (hnd : Handle) :
    Remaps hnd world (gralloc_lock k world hnd).2.2 := by
  obtain hr | ⟨-, hr⟩ := lock_cases k world hnd
  · rw [hr]
    exact remaps_refl world hnd
  · rw [hr]
    exact gralloc_map_bases k world hnd

/-- Where `gralloc_free` leaves the mappings. -/
def unmappedWorld (world : World) (hnd : Handle) : World :=
  if hnd.base ≠ 0 then (gralloc_unmap world hnd).2 else world

theorem Inv.free (hs : Inv s) (h : s.handles id = some hnd) :
    ∃ w', gralloc_free s.world hnd = some (0, w') ∧
      w'.maps = (unmappedWorld s.world hnd).maps ∧
      Inv { s with world := w', handles := Function.update s.handles id none } := by
  have hfds : (unmappedWorld s.world hnd).fds = s.world.fds := by
    rw [unmappedWorld]
    split
    · exact (gralloc_unmap_bases s.world hnd).fds_eq
    · rfl
  have ho := hs.descriptors
  rw [← hfds, ← held_of_alive h] at ho
  obtain ⟨w', hclose, hmaps, ho'⟩ := closeAll_of_owned ho
  have hvalid : ¬hnd.validate < 0 := by rw [(hs.made h).valid]; decide
  refine ⟨w', ?_, hmaps, ?_, fresh_update hs.fresh (hs.next_le h) (Nat.le_refl _),
    forall_update hs.made fun _ hnd' => absurd hnd' (by simp)⟩
  · rw [gralloc_free, if_neg hvalid]
    show (closeAll hnd (unmappedWorld s.world hnd)).map _ = _
    rw [hclose, Option.map_some]
  · show Owned w'.fds (State.held ⟨w', Function.update s.handles id none, s.next⟩ _)
    rw [held_remove]
    exact ho'

theorem Inv.alloc (hs : Inv s) {format : Format} {w : World} (hnew : hnd.New format)
    (ho : Owned w.fds (place (s.held Handle.buffer) s.next hnd.buffer)) :
    Inv ⟨w, Function.update s.handles s.next (some hnd), s.next + 1⟩ where
  descriptors := by
    rw [held_insert]
    exact ho
  fresh := fresh_update hs.fresh (Nat.lt_succ_self _) (Nat.le_succ _)
  made := forall_update hs.made fun _ hnd' => Option.some.inj hnd' ▸ hnew.toMade

theorem Inv.refused (hs : Inv s) {w : World}
    (ho : Owned w.fds (place (s.held Handle.buffer) s.next fun _ => none)) :
    Inv { s with world := w } where
  descriptors := by
    rw [place_eq_self (hs.empty Handle.buffer)] at ho
    exact ho
  fresh := hs.fresh
  made := hs.made

/-- All that a call can do. -/
inductive StepsTo (k : Kernel) (s : State) : Op → State → Prop
  | same {op} : StepsTo k s op s
  | refused {w h format usage world} (hmaps : world.maps = s.world.maps)
      (ho : Owned world.fds (place (s.held Handle.buffer) s.next fun _ => none)) :
      StepsTo k s (.alloc w h format usage) { s with world := world }
  | alloc {w h format usage f hnd world} (hnew : hnd.New f)
      (hformat : format ≠ .exynosYCbCr420SpMPriv → f ≠ .exynosYCbCr420SpMPriv)
      (hmaps : world.maps = s.world.maps)
      (ho : Owned world.fds (place (s.held Handle.buffer) s.next hnd.buffer)) :
      StepsTo k s (.alloc w h format usage)
        ⟨world, Function.update s.handles s.next (some hnd), s.next + 1⟩
  | keep {op id hnd} (h : s.handles id = some hnd) : StepsTo k s op (s.put id (hnd, s.world))
  | map {op id hnd} (h : s.handles id = some hnd) (hbase : Plain s op → hnd.base = 0) :
      StepsTo k s op (s.put id (gralloc_map k s.world hnd).2)
  | unmap {op id hnd} (h : s.handles id = some hnd) :
      StepsTo k s op (s.put id (gralloc_unmap s.world hnd))
  | free {id hnd world} (h : s.handles id = some hnd)
      (hmaps : world.maps = (unmappedWorld s.world hnd).maps)
      (hinv : Inv { s with world := world, handles := Function.update s.handles id none }) :
      StepsTo k s (.free id)
        { s with world := world, handles := Function.update s.handles id none }

/-- Every call goes through. -/
theorem step_cases (hk : k.Sound) (hs : Inv s) {op : Op} (hop : op.Fits) :
    ∃ s', s.step k afbc op = some s' ∧ StepsTo k s op s' := by
  cases op with
  | alloc w h format usage =>
    obtain ⟨r, f, hr, hformat, hall⟩ := allocated_gralloc_alloc hk hop.1 hop.2 hs.descriptors
      (hs.empty Handle.buffer)
    refine ⟨_, by rw [State.step, hr, Option.map_some], ?_⟩
    cases hall with
    | failed he hmaps ho => exact .refused hmaps ho
    | allocated hnew hmaps ho => exact .alloc hnew hformat hmaps ho
  | register id =>
    cases h : s.handles id with
    | none => exact ⟨s, by simp only [State.step, h], .same⟩
    | some hnd =>
      have hvalid : ¬hnd.validate < 0 := by rw [(hs.made h).valid]; decide
      exact ⟨_, by simp only [State.step, h, gralloc_register_buffer, if_neg hvalid],
        .map h fun hplain => hplain hnd h⟩
  | unregister id =>
    cases h : s.handles id with
    | none => exact ⟨s, by simp only [State.step, h], .same⟩
    | some hnd =>
      have hvalid : ¬hnd.validate < 0 := by rw [(hs.made h).valid]; decide
      exact ⟨_, by simp only [State.step, h, gralloc_unregister_buffer, if_neg hvalid],
        .unmap h⟩
  | lock id =>
    cases h : s.handles id with
    | none => exact ⟨s, by simp only [State.step, h], .same⟩
    | some hnd =>
      obtain hr | ⟨hbase, hr⟩ := lock_cases k s.world hnd
      · exact ⟨_, by simp only [State.step, h, hr], .keep h⟩
      · exact ⟨_, by simp only [State.step, h, hr], .map h fun _ => hbase⟩
  | free id =>
    cases h : s.handles id with
    | none => exact ⟨s, by simp only [State.step, h], .same⟩
    | some hnd =>
      obtain ⟨w', hfree, hmaps, hinv⟩ := hs.free h
      exact ⟨_, by simp only [State.step, h, hfree, Option.map_some, if_true],
        .free h hmaps hinv⟩

theorem StepsTo.inv {op : Op} {s' : State} (hstep : StepsTo k s op s') (hs : Inv s) : Inv s' := by
  cases hstep with
  | same => exact hs
  | refused hmaps ho => exact hs.refused ho
  | alloc hnew hformat hmaps ho => exact hs.alloc hnew ho
  | keep h => exact hs.put h (remaps_refl s.world _)
  | map h hbase => exact hs.put h (gralloc_map_bases k s.world _)
  | unmap h => exact hs.put h (gralloc_unmap_bases s.world _)
  | free h hmaps hinv => exact hinv

/-- What holds at the start and is preserved by all that a call can do holds along a run. -/
theorem reach_invariant (hk : k.Sound) {good : State → Op → Prop} {P : State → Prop}
    {s₀ : State} (h0 : P s₀) (hinv : ∀ {s}, P s → Inv s)
    (hnext : ∀ {s op s'}, good s op → P s → StepsTo k s op s' → P s')
    (h : (allocator k afbc).Reach good s₀ s) : P s := by
  refine System.Reach.invariant P h0 (fun {s op} hop hgood hs => ?_) h
  obtain ⟨s', hstep, hto⟩ := step_cases (k := k) hk (hinv hs) hop
  show P ((s.step k afbc op).getD s)
  rw [hstep]
  exact hnext hgood hs hto

theorem inv_reach (hk : k.Sound) {good : State → Op → Prop}
    (h : (allocator k afbc).Reach good State.initial s) : Inv s :=
  reach_invariant hk inv_initial id (fun _ hs hstep => hstep.inv hs) h

end Steps

/-! ## A process -/

/-- Answers with the number of the request, while that is free. -/
def sampleKernel : Kernel where
  ionAlloc w _ _ _ := if w.fds w.calls = none then .ok w.calls else .error 12
  mmap w _ _ :=
    if w.maps (4096 * (w.calls + 1)) = none then .ok (4096 * (w.calls + 1)) else .error 12

theorem sampleKernel_sound : sampleKernel.Sound where
  fd_nonneg h := by
    simp only [sampleKernel] at h
    split at h
    · cases h
      omega
    · cases h
  fd_new h := by
    simp only [sampleKernel] at h
    split at h
    · cases h
      assumption
    · cases h
  ion_error h := by
    simp only [sampleKernel] at h
    split at h
    · cases h
    · cases h
      decide
  address h := by
    simp only [sampleKernel] at h
    split at h
    · cases h
      rw [MAP_FAILED]
      omega
    · cases h
  address_new h := by
    simp only [sampleKernel] at h
    split at h
    · cases h
      assumption
    · cases h

def sampleUsage : Usage where
  swReadOften := true
  hwTexture := true
  hwRender := false
  hwComposer := false
  hwFb := false
  hwVideoEncoder := false
  hwCameraZsl := false
  isProtected := false
  protectedDpb := false
  physicallyLinear := false
  privateNonsecure := false
  cameraReserved := false
  nozeroed := false
  videoExt := false

/-- A buffer with two planes and two with a single one, locked and one of them given back. -/
def sampleOps : List Op :=
  [.alloc 16 16 .exynosYCrCb420SpM sampleUsage, .lock 0,
    .alloc 16 16 .exynosYCbCr420Spn sampleUsage, .lock 1, .free 0,
    .alloc 16 16 .yv12 sampleUsage, .lock 2]

def sampleState : State := (allocator sampleKernel 0).after State.initial sampleOps

theorem sample_fits (s : State) (format : Format) (usage : Usage) :
    (allocator sampleKernel 0).legal s (.alloc 16 16 format usage) := by
  show (16 : ℤ) ≤ maxDimension ∧ (16 : ℤ) ≤ maxDimension
  decide

theorem sample_plain : (allocator sampleKernel 0).Reach Plain State.initial sampleState :=
  System.reach_after
    ⟨sample_fits _ _ _, show Format.exynosYCrCb420SpM ≠ .exynosYCbCr420SpMPriv by decide,
      trivial, trivial,
      sample_fits _ _ _, show Format.exynosYCbCr420Spn ≠ .exynosYCbCr420SpMPriv by decide,
      trivial, trivial, trivial, trivial,
      sample_fits _ _ _, show Format.yv12 ≠ .exynosYCbCr420SpMPriv by decide,
      trivial, trivial, trivial⟩

theorem sample_reach :
    (allocator sampleKernel 0).Reach System.AnyInput State.initial sampleState :=
  System.reach_after
    ⟨sample_fits _ _ _, trivial, trivial, trivial, sample_fits _ _ _, trivial, trivial, trivial,
      trivial, trivial, sample_fits _ _ _, trivial, trivial, trivial, trivial⟩

/-- The open descriptors are those of the planes of the handles that are alive, each of one
    plane and as long as the mapper takes it to be; none is open when no handle is alive, and
    no call closes one that is not open. -/
theorem descriptors_balanced {k : Kernel} {afbc : ℤ} {s : State} (hk : k.Sound)
    (h : (allocator k afbc).Reach System.AnyInput State.initial s) :
    Owned s.world.fds (s.held Handle.buffer) ∧
      ((∀ id, s.handles id = none) → ∀ fd, s.world.fds fd = none) ∧
      ∀ op : Op, op.Fits → (s.step k afbc op).isSome := by
  have hs := inv_reach hk h
  refine ⟨hs.descriptors, fun hnone => hs.descriptors.eq_empty (held_none hnone),
    fun op hop => ?_⟩
  obtain ⟨s', hstep, -⟩ := step_cases hk hs hop
  rw [hstep, Option.isSome_some]

theorem descriptors_balanced_sample :
    Owned sampleState.world.fds (sampleState.held Handle.buffer) ∧
      ((∀ id, sampleState.handles id = none) → ∀ fd, sampleState.world.fds fd = none) ∧
      ∀ op : Op, op.Fits → (sampleState.step sampleKernel 0 op).isSome :=
  descriptors_balanced sampleKernel_sound sample_reach

/-! ## Mappings -/

structure Mapped (s : State) : Prop where
  inv : Inv s
  mappings : Owned s.world.maps (s.held Handle.mapping)
  handles : ∀ {id hnd}, s.handles id = some hnd →
    hnd.format ≠ .exynosYCbCr420SpMPriv ∧ hnd.Consistent

theorem mapped_initial : Mapped State.initial :=
  ⟨inv_initial, Owned.empty, nofun⟩

section Steps

variable {k : Kernel} {afbc : ℤ} {s : State} {id : ℕ} {hnd : Handle}

theorem SameButBases.format_eq {hnd' : Handle} (h : SameButBases hnd hnd') :
    hnd'.format = hnd.format := by
  obtain ⟨b, b1, b2, rfl⟩ := h
  rfl

theorem Mapped.put (hs : Mapped s) (h : s.handles id = some hnd) {r : Handle × World}
    (hr : Remaps hnd s.world r) (hcons : r.1.Consistent)
    (ho : Owned r.2.maps (place (s.held Handle.mapping) id r.1.mapping)) :
    Mapped (s.put id r) where
  inv := hs.inv.put h hr
  mappings := by
    show Owned r.2.maps (State.held ⟨r.2, Function.update s.handles id (some r.1), s.next⟩ _)
    rw [held_insert]
    exact ho
  handles := forall_update hs.handles fun _ hnd' => Option.some.inj hnd' ▸
    ⟨hr.same.format_eq ▸ (hs.handles h).1, hcons⟩

/-- What a handle has in its place. -/
theorem Mapped.at_place (hs : Mapped s) (h : s.handles id = some hnd) :
    Owned s.world.maps (place (s.held Handle.mapping) id hnd.mapping) := by
  rw [held_of_alive h]
  exact hs.mappings

theorem Mapped.map (hk : k.Sound) (hs : Mapped s) (h : s.handles id = some hnd)
    (hbase : hnd.base = 0) : Mapped (s.put id (gralloc_map k s.world hnd).2) := by
  obtain ⟨hformat, hcons⟩ := hs.handles h
  obtain ⟨hcons', ho⟩ := gralloc_map_spec hk hformat (hcons.unmapped hbase) (hs.at_place h)
  exact hs.put h (gralloc_map_bases k s.world hnd) hcons' ho

theorem Mapped.keep (hs : Mapped s) (h : s.handles id = some hnd) :
    Mapped (s.put id (hnd, s.world)) :=
  hs.put h (remaps_refl s.world hnd) (hs.handles h).2 (hs.at_place h)

theorem Mapped.unmap (hs : Mapped s) (h : s.handles id = some hnd) :
    Mapped (s.put id (gralloc_unmap s.world hnd)) := by
  obtain ⟨hformat, hcons⟩ := hs.handles h
  obtain ⟨hun, ho⟩ := gralloc_unmap_spec hformat hcons (hs.at_place h)
  rw [← hun.mapping_eq] at ho
  exact hs.put h (gralloc_unmap_bases s.world hnd) hun.consistent ho

theorem Mapped.lock (hk : k.Sound) (hs : Mapped s) (h : s.handles id = some hnd) :
    Mapped (s.put id (gralloc_lock k s.world hnd).2.2) := by
  obtain hr | ⟨hbase, hr⟩ := lock_cases k s.world hnd
  · rw [hr]
    exact hs.keep h
  · rw [hr]
    exact hs.map hk h hbase

theorem Mapped.free (hs : Mapped s) (h : s.handles id = some hnd) {w' : World}
    (hmaps : w'.maps = (unmappedWorld s.world hnd).maps)
    (hinv : Inv { s with world := w', handles := Function.update s.handles id none }) :
    Mapped { s with world := w', handles := Function.update s.handles id none } where
  inv := hinv
  mappings := by
    obtain ⟨hformat, hcons⟩ := hs.handles h
    have ho := hs.at_place h
    show Owned w'.maps (State.held ⟨w', Function.update s.handles id none, s.next⟩ _)
    rw [held_remove, hmaps, unmappedWorld]
    split
    · exact (gralloc_unmap_spec hformat hcons ho).2
    · rename_i hbase
      rwa [(hcons.unmapped (not_not.mp hbase)).mapping_eq] at ho
  handles := forall_update hs.handles fun _ hnd' => absurd hnd' (by simp)

theorem Mapped.alloc (hs : Mapped s) {format : Format} {w : World} (hnew : hnd.New format)
    (hformat : format ≠ .exynosYCbCr420SpMPriv) (hmaps : w.maps = s.world.maps)
    (ho : Owned w.fds (place (s.held Handle.buffer) s.next hnd.buffer)) :
    Mapped ⟨w, Function.update s.handles s.next (some hnd), s.next + 1⟩ where
  inv := hs.inv.alloc hnew ho
  mappings := by
    rw [held_insert, hnew.unmapped.mapping_eq, place_eq_self (hs.inv.empty Handle.mapping)]
    show Owned w.maps _
    rw [hmaps]
    exact hs.mappings
  handles := forall_update hs.handles fun _ hnd' => Option.some.inj hnd' ▸
    ⟨hnew.format_eq ▸ hformat, hnew.unmapped.consistent⟩

theorem Mapped.step (hk : k.Sound) (hs : Mapped s) {op : Op} {s' : State} (hplain : Plain s op)
    (hstep : StepsTo k s op s') : Mapped s' := by
  cases hstep with
  | same => exact hs
  | refused hmaps ho => exact ⟨hs.inv.refused ho, hmaps ▸ hs.mappings, hs.handles⟩
  | alloc hnew hformat hmaps ho => exact hs.alloc hnew (hformat hplain) hmaps ho
  | keep h => exact hs.keep h
  | map h hbase => exact hs.map hk h (hbase hplain)
  | unmap h => exact hs.unmap h
  | free h hmaps hinv => exact hs.free h hmaps hinv

theorem mapped_reach (hk : k.Sound) (h : (allocator k afbc).Reach Plain State.initial s) :
    Mapped s :=
  reach_invariant hk mapped_initial Mapped.inv
    (fun hplain hs hstep => hs.step hk hplain hstep) h

end Steps

/-- The mappings are those that the bases of the handles that are alive stand for, each of one
    plane, and there is none when no handle is alive. -/
theorem mappings_balanced {k : Kernel} {afbc : ℤ} {s : State} (hk : k.Sound)
    (h : (allocator k afbc).Reach Plain State.initial s) :
    Owned s.world.maps (s.held Handle.mapping) ∧
      ((∀ id, s.handles id = none) → ∀ a, s.world.maps a = none) := by
  have hs := (mapped_reach hk h).mappings
  exact ⟨hs, fun hnone => hs.eq_empty (held_none hnone)⟩

theorem mappings_balanced_sample :
    Owned sampleState.world.maps (sampleState.held Handle.mapping) ∧
      ((∀ id, sampleState.handles id = none) → ∀ a, sampleState.world.maps a = none) :=
  mappings_balanced sampleKernel_sound sample_plain

/-! ## Addresses -/

section Lock

variable {k : Kernel} {s : State} {id : ℕ} {hnd : Handle}

/-- A base is 0, the mark of a failure, or the start of a mapping of its plane. -/
theorem Mapped.held_base (hs : Mapped s) (h : s.handles id = some hnd) (plane : Plane)
    {a len : ℕ} (hplane : hnd.mapping plane = mapped a len) :
    a = 0 ∨ a = MAP_FAILED ∨ s.world.maps a = some len := by
  by_cases hne : a = 0 ∨ a = MAP_FAILED
  · rcases hne with hne | hne
    · exact .inl hne
    · exact .inr (.inl hne)
  · refine .inr (.inr (hs.mappings.held (i := (id, plane)) ?_))
    simp [State.held, h, hplane, mapped, hne]

theorem gralloc_lock_eq (hvalid : hnd.validate = 0)
    (hformat : hnd.frameworkFormat ≠ .yCbCr420_888) :
    gralloc_lock k s.world hnd =
      (0, some (lockAddresses (gralloc_lock k s.world hnd).2.2.1),
        (gralloc_lock k s.world hnd).2.2) := by
  have hneg : ¬hnd.validate < 0 := by omega
  rw [gralloc_lock, if_neg hneg, if_neg hformat]

/-- What the addresses of a lock point to, in every run. The first is 0 where nothing is mapped
    and the start of the first buffer otherwise. Those of planes with a buffer of their own are
    the starts of these, or the mark of a failed `mmap`. The second address in a single buffer
    lies behind its end. -/
theorem lock_addresses {afbc : ℤ} (hk : k.Sound)
    (h : (allocator k afbc).Reach Plain State.initial s) (hid : s.handles id = some hnd)
    (hformat : hnd.frameworkFormat ≠ .yCbCr420_888) :
    ∃ v hnd' w', gralloc_lock k s.world hnd = (0, some v, hnd', w') ∧
      (v.first = 0 ∨ w'.maps v.first = some (toSizeT hnd.size)) ∧
      (hnd.fd1 ≥ 0 → ∀ a ∈ v.second, a = 0 ∨ a = MAP_FAILED ∨ w'.maps a = some hnd.chroma) ∧
      (hnd.fd1 < 0 → ∀ a ∈ v.second, v.first + toSizeT hnd.size ≤ a) ∧
      ∀ a ∈ v.third, a = 0 ∨ a = MAP_FAILED ∨ w'.maps a = some hnd.chroma := by
  have hs := mapped_reach hk h
  have hmade := hs.inv.made hid
  have hsame := (remaps_lock k s.world hnd).same
  have hs' := hs.lock hk hid
  refine ⟨_, _, _, gralloc_lock_eq hmade.valid hformat, ?_⟩
  obtain ⟨b, b1, b2, hb⟩ := hsame
  have hid' : (s.put id (gralloc_lock k s.world hnd).2.2).handles id =
      some (hnd.withBases b b1 b2) := by
    rw [← hb]
    exact Function.update_self _ _ _
  rw [hb]
  refine ⟨?_, fun hfd a ha => ?_, fun hfd a ha => ?_, fun a ha => ?_⟩
  · rcases hs'.held_base hid' .first rfl with h0 | hfailed | hmaps
    · exact .inl h0
    · exact absurd hfailed (hs'.handles hid').2.first
    · exact .inr hmaps
  · have hsecond : (lockAddresses (hnd.withBases b b1 b2)).second = some b1 := if_pos hfd
    obtain rfl : b1 = a := Option.some.inj (hsecond.symm.trans ha)
    exact hs'.held_base hid' .second rfl
  · have hneg : ¬hnd.fd1 ≥ 0 := by omega
    have hsecond : (lockAddresses (hnd.withBases b b1 b2)).second =
        hnd.secondOffset.map (b + ·) := if_neg hneg
    rw [hsecond] at ha
    obtain ⟨n, hn, rfl⟩ := Option.map_eq_some_iff.mp ha
    exact Nat.add_le_add_left (hmade.outside n hn) b
  · by_cases hfd : hnd.fd2 ≥ 0
    · have hthird : (lockAddresses (hnd.withBases b b1 b2)).third = some b2 := if_pos hfd
      obtain rfl : b2 = a := Option.some.inj (hthird.symm.trans ha)
      exact hs'.held_base hid' .third (by
        simp [Handle.mapping, Handle.withBases, Handle.chroma, (hs.handles hid).1])
    · have hthird : (lockAddresses (hnd.withBases b b1 b2)).third = none := if_neg hfd
      rw [hthird] at ha
      cases ha

end Lock

def sampleHandle : Handle :=
  (Handle.make 4 (-1) (-1) 2 896 sampleUsage 16 16 .exynosYCbCr420Spn .exynosYCbCr420Spn 16
    16).withBases 24576 0 0

theorem lock_addresses_sample :
    ∃ v hnd' w', gralloc_lock sampleKernel sampleState.world sampleHandle =
        (0, some v, hnd', w') ∧
      ∀ a ∈ v.second, v.first + toSizeT sampleHandle.size ≤ a := by
  have hid : sampleState.handles 1 = some sampleHandle := by decide
  obtain ⟨v, hnd', w', hlock, -, -, hsecond, -⟩ :=
    lock_addresses sampleKernel_sound sample_plain hid (by decide)
  exact ⟨v, hnd', w', hlock, hsecond (by decide)⟩

/-! ## The planes of `gralloc_lock_ycbcr` -/

namespace YCbCr

def yAt (c : YCbCr) (row column : ℕ) : ℕ := c.y + row * c.ystride + column

def cbAt (c : YCbCr) (row column : ℕ) : ℕ := c.cb + row * c.cstride + column * c.chromaStep

def crAt (c : YCbCr) (row column : ℕ) : ℕ := c.cr + row * c.cstride + column * c.chromaStep

end YCbCr

theorem row_end_le {row rows : ℕ} (stride : ℕ) (h : row < rows) :
    row * stride + stride ≤ rows * stride := by
  rw [← Nat.succ_mul]
  exact Nat.mul_le_mul_right stride h

theorem half_rows_le (h stride : ℕ) : 2 * (h / 2 * stride) ≤ stride * h := by
  rw [← Nat.mul_assoc, Nat.mul_comm stride h]
  exact Nat.mul_le_mul_right stride (Nat.mul_div_le h 2)

theorem le_align (x : ℕ) : x ≤ align x 16 := by
  rw [align]
  omega

theorem column_ne {row row' a b w : ℕ} (ha : a < w) (hb : b < w) (hne : a ≠ b) :
    row * w + a ≠ row' * w + b := by
  intro h
  have hmod := congrArg (· % w) h
  simp only [Nat.mul_add_mod', Nat.mod_eq_of_lt ha, Nat.mod_eq_of_lt hb] at hmod
  exact hne hmod

/-- From `hnd.base` on, which is 0 as long as the handle is not mapped, the samples of the three
    planes are no further than the buffer is long, and no sample of a plane is one of another.
    The chroma planes have half the rows and columns, rounded down. -/
theorem ycbcr_planes {k : Kernel} {afbc : ℤ} {s : State} {id : ℕ} {hnd : Handle} {c : YCbCr}
    (hk : k.Sound) (h : (allocator k afbc).Reach System.AnyInput State.initial s)
    (hid : s.handles id = some hnd) (hlock : gralloc_lock_ycbcr hnd = (0, some c)) :
    c.ystride * hnd.height ≤ toSizeT hnd.size ∧
    (∀ row < hnd.height, ∀ column < hnd.width, hnd.base ≤ c.yAt row column ∧
      c.yAt row column < hnd.base + c.ystride * hnd.height) ∧
    ∀ row < hnd.height / 2, ∀ column < hnd.width / 2,
      (hnd.base + c.ystride * hnd.height ≤ c.cbAt row column ∧
        c.cbAt row column < hnd.base + toSizeT hnd.size) ∧
      (hnd.base + c.ystride * hnd.height ≤ c.crAt row column ∧
        c.crAt row column < hnd.base + toSizeT hnd.size) ∧
      ∀ row' < hnd.height / 2, ∀ column' < hnd.width / 2,
        c.cbAt row column ≠ c.crAt row' column' := by
  have hmade := (inv_reach hk h).made hid
  have hframework := hmade.framework
  rw [gralloc_lock_ycbcr, if_neg (by rw [hmade.valid]; decide)] at hlock
  cases hformat : hnd.format <;> rw [hformat] at hlock hframework <;>
    simp only [Prod.mk.injEq, Option.some.injEq, reduceCtorEq, and_false, true_and] at hlock
  case yv12 =>
    subst hlock
    have hsize := hframework _ rfl
    have hwidth := le_align hnd.width
    have hhalf := le_align (align hnd.width 16 / 2)
    have hchroma := half_rows_le hnd.height (align (align hnd.width 16 / 2) 16)
    simp only [YCbCr.yAt, YCbCr.cbAt, YCbCr.crAt, hsize, Nat.mul_one]
    refine ⟨by omega, fun row hrow column hcolumn => ?_, fun row hrow column hcolumn =>
      ⟨?_, ?_, fun row' hrow' column' hcolumn' => ?_⟩⟩
    · have hend := row_end_le (align hnd.width 16) hrow
      rw [Nat.mul_comm hnd.height] at hend
      omega
    · have hend := row_end_le (align (align hnd.width 16 / 2) 16) hrow
      omega
    · have hend := row_end_le (align (align hnd.width 16 / 2) 16) hrow
      omega
    · -- the plane of `cr` ends where that of `cb` begins
      have hend := row_end_le (align (align hnd.width 16 / 2) 16) hrow'
      omega
  case yCrCb420Sp =>
    subst hlock
    have hsize := hframework _ rfl
    have hchroma := half_rows_le hnd.height hnd.width
    simp only [YCbCr.yAt, YCbCr.cbAt, YCbCr.crAt, hsize]
    refine ⟨by omega, fun row hrow column hcolumn => ?_, fun row hrow column hcolumn =>
      ⟨?_, ?_, fun row' hrow' column' hcolumn' => ?_⟩⟩
    · have hend := row_end_le hnd.width hrow
      rw [Nat.mul_comm hnd.height] at hend
      omega
    · have hend := row_end_le hnd.width hrow
      omega
    · have hend := row_end_le hnd.width hrow
      omega
    · -- `cb` and `cr` take turns, in odd and even columns
      have hne : row * hnd.width + (column * 2 + 1) ≠ row' * hnd.width + column' * 2 :=
        column_ne (by omega) (by omega) (by omega)
      omega

def sampleYv12 : Handle :=
  (Handle.make 6 (-1) (-1) 2 768 sampleUsage 16 16 .yv12 .yv12 16 16).withBases 32768 0 0

theorem ycbcr_planes_sample :
    gralloc_lock_ycbcr sampleYv12 = (0, some ⟨32768, 33152, 33024, 16, 16, 1⟩) ∧
      16 * 16 ≤ toSizeT sampleYv12.size :=
  have hid : sampleState.handles 2 = some sampleYv12 := by decide
  have hlock : gralloc_lock_ycbcr sampleYv12 = (0, some ⟨32768, 33152, 33024, 16, 16, 1⟩) := by
    decide
  ⟨hlock, (ycbcr_planes sampleKernel_sound sample_reach hid hlock).1⟩

end Pro5Android.Gralloc
