import Pro5Android.Torch.Module
import Pro5Android.Lib.Machine
import Mathlib.Tactic.SplitIfs

/-!
# The torch and the cameras

`openDevice`, `closeDevice` and `setTorchMode` run on any threads. Each stretch under
the lock is atomic, and so is each write to sysfs and each report; everything else may
come between them. `setTorchMode` looks for an open device in one stretch and switches
the torch on and commits in later ones (lines 665–719), and no stretch of `openDevice`
looks for a torch that is going on: a device that opens between them finds the torch
switched on, and reported on, while it is open.

Results:
* `quiet`: what switches the torch off does not switch it on.
* `exclusion_step`: what every stretch preserves.
* `torch_excluded`: mutual exclusion where no device opens while the torch goes on, and
  what holds in every run.
* `torch_not_excluded`: a run in which it fails.
-/

namespace Pro5Android.Torch

open Lib Lib.Machine

/-! ## Threads -/

/-- What is logged, with the device that is open at that moment. -/
inductive Event
  | wrote (write : Write) (written : Bool) (device : Option CameraDevice)
  | reported (status : TorchModeStatus) (device : Option CameraDevice)
  deriving DecidableEq

/-- The module, the devices that were opened and are not closed, and the log. -/
structure Shared where
  module : Module
  opened : List CameraDevice
  log : List Event

/-- A call; `setCallbacks` came before. -/
inductive Entry
  | openDevice (hasModule : Bool) (id : Option (List Char)) (hasDevice : Bool)
  | closeDevice (device : Option CameraDevice)
  | setTorchMode (id : Option (List Char)) (enabled : Bool)

/-- Where a call is. -/
inductive Activation
  | openSection (cameraId : ℤ)
  /-- The engine is released. -/
  | release (camera : CameraDevice)
  | closeSection (camera : CameraDevice)
  | checkTorch (enabled : Bool)
  /-- The writes that are still to be made; then the torch is committed. -/
  | turnOn (todo : List Write)
  | cleanUp (todo : List Write)
  | turnOff (todo : List Write) (failed : Bool)
  /-- `notifyTorchStatus` under the lock, and its callback. -/
  | notify (status : TorchModeStatus)
  | callback (status : TorchModeStatus)

/-- What `calloc`, `new` and `writeSysfs` return. -/
structure Answer where
  calloc : Option ℕ
  engine : Bool
  written : Bool

namespace Shared

/-- A report for the rear camera, to be made after the lock is released. -/
def report (cameraId : ℤ) (status : TorchModeStatus) : List Activation :=
  if cameraId = kRearCameraId then [.notify status] else []

/-- A write. -/
def writeSysfs (write : Write) (written : Bool) (s : Shared) : Shared :=
  { s with log := .wrote write written s.module.device :: s.log }

/-- A call begins; a device is closed while it is open. -/
def enter (s : Shared) : Entry → Option (Shared × List Activation)
  | .openDevice hasModule id hasDevice =>
    if !hasModule || !hasDevice || decide (parseCameraId id < 0) then some (s, [])
    else some (s, [.openSection (parseCameraId id)])
  | .closeDevice none => some (s, [])
  | .closeDevice (some camera) => if camera ∈ s.opened then some (s, [.release camera]) else none
  | .setTorchMode id enabled =>
    if parseCameraId id = kRearCameraId then some (s, [.checkTorch enabled]) else some (s, [])

/-- A stretch runs. -/
def exec : Activation → Answer → Shared → Option (Outcome Shared Activation)
  | .openSection cameraId, x, s =>
    let (result, m) := s.module.openSection cameraId x.calloc x.engine
    if result ≠ 0 then some ⟨{ s with module := m }, [], []⟩
    else
      some ⟨{ s with module := m, opened := m.device.toList ++ s.opened },
        report cameraId .notAvailable, []⟩
  | .release camera, _, s => some ⟨s, [.closeSection camera], []⟩
  | .closeSection camera, _, s =>
    some ⟨{ s with
        module := s.module.closeSection camera
        opened := s.opened.filter fun device => device.address ≠ camera.address },
      report camera.cameraId .availableOff, []⟩
  | .checkTorch enabled, _, s =>
    if s.module.refusesTorch then some ⟨s, [], []⟩
    else some ⟨s, [if enabled then .turnOn onWrites else .turnOff offWrites false], []⟩
  | .turnOn [], _, s =>
    some ⟨{ s with module := s.module.commitTorch true }, [.notify .availableOn], []⟩
  | .turnOn (write :: todo), x, s =>
    some ⟨s.writeSysfs write x.written,
      [if x.written then .turnOn todo else .cleanUp offWrites], []⟩
  | .cleanUp [], _, s => some ⟨s, [], []⟩
  | .cleanUp (write :: todo), x, s => some ⟨s.writeSysfs write x.written, [.cleanUp todo], []⟩
  | .turnOff [] failed, _, s =>
    if failed then some ⟨s, [], []⟩
    else some ⟨{ s with module := s.module.commitTorch false }, [.notify .availableOff], []⟩
  | .turnOff (write :: todo) failed, x, s =>
    some ⟨s.writeSysfs write x.written, [.turnOff todo (failed || !x.written)], []⟩
  | .notify status, _, s => some ⟨s, if s.module.reports then [.callback status] else [], []⟩
  | .callback status, _, s =>
    some ⟨{ s with log := .reported status s.module.device :: s.log }, [], []⟩

/-- The module that is loaded, with its callbacks. -/
def loaded (callbacks : Option Callbacks) : Shared := ⟨{ Module.loaded with callbacks := callbacks }, [], []⟩

end Shared

/-- The module under the threads of its callers. -/
def torchMachine : Machine Shared Activation Entry Answer := ⟨Shared.enter, Shared.exec⟩

/-! ## Exclusion -/

/-- The torch is not switched on, nor reported on, while a device is open. -/
def SafeEvent : Event → Prop
  | .wrote write written device => write = switchOn → written = true → device = none
  | .reported status device => status = .availableOn → device = none

/-- A call is past its check and switches the torch on, or is about to report it on. -/
def Activation.turnsOn : Activation → Bool
  | .turnOn _ => true
  | .notify status => status == .availableOn
  | .callback status => status == .availableOn
  | _ => false

/-- A device opens while the torch goes on. -/
def disturbs (c : Config Shared Activation) : Activation → Answer → Bool
  | .openSection _, x =>
    c.shared.module.device.isNone && x.calloc.isSome && x.engine &&
      c.threads.any fun stack => stack.any Activation.turnsOn
  | _, _ => false

/-- The writes that do not switch the torch on. -/
def Activation.Quiet : Activation → Prop
  | .cleanUp todo => switchOn ∉ todo
  | .turnOff todo _ => switchOn ∉ todo
  | _ => True

section

variable {good : Config Shared Activation → Activation → Answer → Prop}
variable {callbacks : Option Callbacks} {c : Config Shared Activation}

theorem quiet_report (cameraId : ℤ) (status : TorchModeStatus) :
    ∀ j ∈ Shared.report cameraId status, j.Quiet := by
  intro j hj
  unfold Shared.report at hj
  split_ifs at hj
  · rw [List.mem_singleton.mp hj]
    exact trivial
  · cases hj

/-- A device does not open and nothing changes, or it opens. -/
theorem exec_openSection_cases {cameraId : ℤ} {x : Answer} {s : Shared}
    {o : Outcome Shared Activation} (hexec : Shared.exec (.openSection cameraId) x s = some o) :
    ((s.module.openSection cameraId x.calloc x.engine).1 ≠ 0 ∧ o = ⟨s, [], []⟩) ∨
    ∃ address, s.module.device = none ∧ x.calloc.isSome = true ∧ x.engine = true ∧
      (s.module.openSection cameraId x.calloc x.engine).1 = 0 ∧
      o.shared.module.device = some ⟨address, cameraId⟩ ∧
      o.shared.opened = ⟨address, cameraId⟩ :: s.opened ∧ o.shared.log = s.log ∧
      o.push = Shared.report cameraId .notAvailable ∧ o.fork = [] := by
  rw [Shared.exec] at hexec
  dsimp only at hexec
  obtain ⟨error, herror, heq⟩ | ⟨address, hdevice, hcalloc, hengine, heq⟩ :=
    Module.openSection_cases (m := s.module) cameraId x.calloc x.engine
  · rw [heq] at hexec ⊢
    dsimp only at hexec
    rw [if_pos herror] at hexec
    obtain rfl := Option.some.inj hexec
    exact .inl ⟨herror, rfl⟩
  · rw [heq] at hexec ⊢
    dsimp only at hexec
    rw [if_neg (not_not_intro rfl)] at hexec
    obtain rfl := Option.some.inj hexec
    exact .inr ⟨address, hdevice, by rw [hcalloc]; rfl, hengine, rfl, rfl, rfl, rfl, rfl, rfl⟩

/-- No stretch that switches the torch off makes one that switches it on. -/
theorem exec_quiet {i : Activation} {x : Answer} {s : Shared} {o : Outcome Shared Activation}
    (hexec : Shared.exec i x s = some o) (hi : i.Quiet) :
    (∀ j ∈ o.push, j.Quiet) ∧ o.fork = [] := by
  have hnone : ∀ j ∈ ([] : List Activation), j.Quiet := fun j hj => absurd hj List.not_mem_nil
  have hone : ∀ {i : Activation}, i.Quiet → ∀ j ∈ [i], j.Quiet := by
    intro i hi j hj
    rwa [List.mem_singleton.mp hj]
  have hoff : switchOn ∉ offWrites := by decide
  cases i with
  | openSection cameraId =>
    obtain ⟨-, rfl⟩ | ⟨_, -, -, -, -, -, -, -, hpush, hfork⟩ := exec_openSection_cases hexec
    · exact ⟨hnone, rfl⟩
    · rw [hpush]
      exact ⟨quiet_report _ _, hfork⟩
  | release camera =>
    obtain rfl := Option.some.inj hexec
    exact ⟨hone trivial, rfl⟩
  | closeSection camera =>
    obtain rfl := Option.some.inj hexec
    exact ⟨quiet_report _ _, rfl⟩
  | checkTorch enabled =>
    rw [Shared.exec] at hexec
    split_ifs at hexec
    · obtain rfl := Option.some.inj hexec
      exact ⟨hnone, rfl⟩
    · obtain rfl := Option.some.inj hexec
      exact ⟨hone trivial, rfl⟩
    · obtain rfl := Option.some.inj hexec
      exact ⟨hone hoff, rfl⟩
  | turnOn todo =>
    cases todo with
    | nil =>
      obtain rfl := Option.some.inj hexec
      exact ⟨hone trivial, rfl⟩
    | cons write todo =>
      obtain rfl := Option.some.inj hexec
      refine ⟨hone ?_, rfl⟩
      split_ifs
      · exact trivial
      · exact hoff
  | cleanUp todo =>
    cases todo with
    | nil =>
      obtain rfl := Option.some.inj hexec
      exact ⟨hnone, rfl⟩
    | cons write todo =>
      obtain rfl := Option.some.inj hexec
      exact ⟨hone (List.not_mem_of_not_mem_cons hi), rfl⟩
  | turnOff todo failed =>
    cases todo with
    | nil =>
      rw [Shared.exec] at hexec
      split_ifs at hexec
      · obtain rfl := Option.some.inj hexec
        exact ⟨hnone, rfl⟩
      · obtain rfl := Option.some.inj hexec
        exact ⟨hone trivial, rfl⟩
    | cons write todo =>
      obtain rfl := Option.some.inj hexec
      exact ⟨hone (List.not_mem_of_not_mem_cons hi), rfl⟩
  | notify status =>
    obtain rfl := Option.some.inj hexec
    refine ⟨?_, rfl⟩
    dsimp only
    split_ifs
    · exact hone trivial
    · exact hnone
  | callback status =>
    obtain rfl := Option.some.inj hexec
    exact ⟨hnone, rfl⟩

/-- A call begins quietly. -/
theorem enter_cases {s s' : Shared} {entry : Entry} {stack : List Activation}
    (henter : s.enter entry = some (s', stack)) :
    s' = s ∧ ∀ j ∈ stack, j.Quiet ∧ j.turnsOn = false := by
  have hnone : ∀ {stack : List Activation}, some (s, []) = some (s', stack) →
      s' = s ∧ ∀ j ∈ stack, j.Quiet ∧ j.turnsOn = false := by
    intro stack h
    obtain ⟨rfl, rfl⟩ := Prod.mk.inj (Option.some.inj h)
    exact ⟨rfl, fun j hj => absurd hj List.not_mem_nil⟩
  have hone : ∀ {i : Activation} {stack : List Activation}, some (s, [i]) = some (s', stack) →
      i.Quiet → i.turnsOn = false → s' = s ∧ ∀ j ∈ stack, j.Quiet ∧ j.turnsOn = false := by
    intro i stack h hi hoff
    obtain ⟨rfl, rfl⟩ := Prod.mk.inj (Option.some.inj h)
    refine ⟨rfl, fun j hj => ?_⟩
    rw [List.mem_singleton.mp hj]
    exact ⟨hi, hoff⟩
  cases entry with
  | openDevice hasModule id hasDevice =>
    rw [Shared.enter] at henter
    split_ifs at henter
    · exact hnone henter
    · exact hone henter trivial rfl
  | closeDevice device =>
    cases device with
    | none => exact hnone henter
    | some camera =>
      rw [Shared.enter] at henter
      split_ifs at henter
      exact hone henter trivial rfl
  | setTorchMode id enabled =>
    rw [Shared.enter] at henter
    split_ifs at henter
    · exact hone henter trivial rfl
    · exact hnone henter

/-- **What switches the torch off** does not switch it on, in any run. -/
theorem quiet (h : torchMachine.Reach good ⟨.loaded callbacks, []⟩ c) :
    Every Activation.Quiet c.threads := by
  refine (h.every_invariant (fun _ => True) (fun _ i => i.Quiet) ?_ ?_ ?_).2
  · exact ⟨trivial, fun stack hs => absurd hs List.not_mem_nil⟩
  · intro s k s' stack henter _
    exact ⟨trivial, fun i hi => hi, fun i hi => ((enter_cases henter).2 i hi).1⟩
  · intro s A i rest B x o _ _ hexec _ hi
    obtain ⟨hpush, hfork⟩ := exec_quiet hexec hi
    refine ⟨trivial, fun j hj => hj, hpush, ?_⟩
    rw [hfork]
    exact fun stack hs => absurd hs List.not_mem_nil

/-! ## While a device is open -/

/-- One for each call that switches the torch on. -/
def onWeight (i : Activation) : ℕ := if i.turnsOn then 1 else 0

/-- While a device is open, no call switches the torch on; and the log is safe. -/
structure Excluded (s : Shared) (on : ℕ) : Prop where
  none_on : s.module.device ≠ none → on = 0
  safe : ∀ e ∈ s.log, SafeEvent e

theorem Excluded.mono {s : Shared} {on on' : ℕ} (he : Excluded s on) (hle : on' ≤ on) :
    Excluded s on' :=
  ⟨fun hdevice => Nat.le_zero.mp ((he.none_on hdevice).symm ▸ hle), he.safe⟩

theorem Excluded.log {s : Shared} {on : ℕ} (he : Excluded s on) {e : Event} (hsafe : SafeEvent e) :
    Excluded { s with log := e :: s.log } on :=
  ⟨he.none_on, List.forall_mem_cons.mpr ⟨hsafe, he.safe⟩⟩

theorem onWeight_report (cameraId : ℤ) {status : TorchModeStatus} (h : status ≠ .availableOn) :
    weighList onWeight (Shared.report cameraId status) = 0 := by
  apply weighList_eq_zero
  intro j hj
  unfold Shared.report at hj
  split_ifs at hj
  · rw [List.mem_singleton.mp hj, onWeight, Activation.turnsOn, if_neg]
    rwa [beq_iff_eq]
  · cases hj

/-- **Every stretch keeps the exclusion**, if no device opens while the torch goes on. -/
theorem exclusion_step {i : Activation} {x : Answer} {s : Shared} {o : Outcome Shared Activation}
    {others : ℕ} (hexec : Shared.exec i x s = some o) (hi : i.Quiet)
    (hopens : (∃ cameraId, i = .openSection cameraId) → s.module.device = none →
      x.calloc.isSome = true → x.engine = true → others = 0)
    (he : Excluded s (others + onWeight i)) :
    Excluded o.shared (others + weighList onWeight o.push) := by
  cases i with
  | openSection cameraId =>
    obtain ⟨-, rfl⟩ | ⟨_, hdevice, hcalloc, hengine, -, -, -, hlog, hpush, -⟩ :=
      exec_openSection_cases hexec
    · exact he
    · have hothers := hopens ⟨cameraId, rfl⟩ hdevice hcalloc hengine
      refine ⟨fun _ => ?_, ?_⟩
      · rw [hothers, hpush, onWeight_report cameraId (by decide)]
      · rw [hlog]
        exact he.safe
  | release camera =>
    obtain rfl := Option.some.inj hexec
    exact he
  | closeSection camera =>
    obtain rfl := Option.some.inj hexec
    refine ⟨fun hdevice => ?_, he.safe⟩
    rw [onWeight_report camera.cameraId (by decide)]
    apply he.none_on
    intro hnone
    apply hdevice
    show (s.module.closeSection camera).device = none
    unfold Module.closeSection
    split_ifs
    · rfl
    · exact hnone
  | checkTorch enabled =>
    rw [Shared.exec] at hexec
    by_cases hrefuses : s.module.refusesTorch = true
    · rw [if_pos hrefuses] at hexec
      obtain rfl := Option.some.inj hexec
      exact he
    · rw [if_neg hrefuses] at hexec
      obtain rfl := Option.some.inj hexec
      have hdevice : s.module.device = none := Option.not_isSome_iff_eq_none.mp hrefuses
      exact ⟨fun hopen => absurd hdevice hopen, he.safe⟩
  | turnOn todo =>
    have hdevice : s.module.device = none := by
      by_contra hopen
      exact absurd (he.none_on hopen) (Nat.succ_ne_zero others)
    cases todo with
    | nil =>
      obtain rfl := Option.some.inj hexec
      exact ⟨he.none_on, he.safe⟩
    | cons write todo =>
      obtain rfl := Option.some.inj hexec
      have hsafe : SafeEvent (.wrote write x.written s.module.device) := fun _ _ => hdevice
      refine Excluded.log (he.mono ?_) hsafe
      split_ifs
      · exact Nat.le_refl _
      · exact Nat.le_succ others
  | cleanUp todo =>
    cases todo with
    | nil =>
      obtain rfl := Option.some.inj hexec
      exact he
    | cons write todo =>
      obtain rfl := Option.some.inj hexec
      apply Excluded.log he
      rintro rfl _
      exact absurd List.mem_cons_self hi
  | turnOff todo failed =>
    cases todo with
    | nil =>
      rw [Shared.exec] at hexec
      split_ifs at hexec
      · obtain rfl := Option.some.inj hexec
        exact he
      · obtain rfl := Option.some.inj hexec
        exact ⟨he.none_on, he.safe⟩
    | cons write todo =>
      obtain rfl := Option.some.inj hexec
      apply Excluded.log he
      rintro rfl _
      exact absurd List.mem_cons_self hi
  | notify status =>
    obtain rfl := Option.some.inj hexec
    apply he.mono
    dsimp only
    split_ifs
    · exact Nat.le_refl _
    · exact Nat.le_add_right _ _
  | callback status =>
    obtain rfl := Option.some.inj hexec
    apply Excluded.log (he.mono (Nat.le_add_right _ _))
    rintro rfl
    by_contra hopen
    exact absurd (he.none_on hopen) (Nat.succ_ne_zero others)

/-- One device at most is open. -/
theorem exec_opened {i : Activation} {x : Answer} {s : Shared} {o : Outcome Shared Activation}
    (hexec : Shared.exec i x s = some o) (h : s.opened = s.module.device.toList) :
    o.shared.opened = o.shared.module.device.toList := by
  cases i with
  | openSection cameraId =>
    obtain ⟨-, rfl⟩ | ⟨_, hnone, -, -, -, hdevice, hopened, -⟩ := exec_openSection_cases hexec
    · exact h
    · rw [hopened, hdevice, h, hnone]
      rfl
  | closeSection camera =>
    obtain rfl := Option.some.inj hexec
    show s.opened.filter (fun device => device.address ≠ camera.address) =
      (s.module.closeSection camera).device.toList
    rw [h, Module.closeSection]
    cases hdevice : s.module.device with
    | none =>
      rw [if_neg (by simp)]
      simp [hdevice]
    | some device =>
      by_cases haddress : device.address = camera.address
      · simp [haddress]
      · simp [haddress, hdevice]
  | checkTorch enabled =>
    rw [Shared.exec] at hexec
    split_ifs at hexec <;> (obtain rfl := Option.some.inj hexec; exact h)
  | turnOn todo =>
    cases todo <;> (obtain rfl := Option.some.inj hexec; exact h)
  | cleanUp todo =>
    cases todo <;> (obtain rfl := Option.some.inj hexec; exact h)
  | turnOff todo failed =>
    cases todo with
    | nil =>
      rw [Shared.exec] at hexec
      split_ifs at hexec <;> (obtain rfl := Option.some.inj hexec; exact h)
    | cons write todo =>
      obtain rfl := Option.some.inj hexec
      exact h
  | release camera | notify status | callback status =>
    obtain rfl := Option.some.inj hexec
    exact h

/-- A device that does not open leaves the module. -/
theorem exec_openSection_of_error {cameraId : ℤ} {x : Answer} {s : Shared}
    {o : Outcome Shared Activation} (hexec : Shared.exec (.openSection cameraId) x s = some o)
    (herror : (s.module.openSection cameraId x.calloc x.engine).1 ≠ 0) :
    o.shared.module = s.module := by
  obtain ⟨-, rfl⟩ | ⟨_, -, -, -, hresult, -⟩ := exec_openSection_cases hexec
  · rfl
  · exact absurd hresult herror

/-- The devices that are open, in any run. -/
theorem opened_eq (h : torchMachine.Reach good ⟨.loaded callbacks, []⟩ c) :
    c.shared.opened = c.shared.module.device.toList := by
  refine h.shared_invariant (fun s => s.opened = s.module.device.toList) rfl ?_ ?_
  · intro s k s' stack henter hs
    rwa [(enter_cases henter).1]
  · intro s A i rest B x o _ _ hexec hs
    exact exec_opened hexec hs

/-- A device that opens finds no call that switches the torch on, unless it disturbs one. -/
theorem weigh_eq_zero_of_undisturbed {s : Shared} {A B : List (List Activation)} {cameraId : ℤ}
    {rest : List Activation} {x : Answer}
    (hdisturbs : disturbs ⟨s, A ++ (.openSection cameraId :: rest) :: B⟩ (.openSection cameraId) x =
      false)
    (hdevice : s.module.device = none) (hcalloc : x.calloc.isSome = true)
    (hengine : x.engine = true) : weigh onWeight (A ++ rest :: B) = 0 := by
  rw [disturbs, hdevice, hcalloc, hengine] at hdisturbs
  apply weigh_eq_zero
  refine ((every_split A B (.openSection cameraId) rest).mp ?_).1
  intro stack hs i hi
  have hstack := List.any_eq_false.mp hdisturbs stack hs
  rw [Bool.not_eq_true, List.any_eq_false] at hstack
  rw [onWeight, if_neg (hstack i hi)]

/-- While no device opens during a switching on, the two exclude each other. -/
theorem excluded (hgood : ∀ c i x, good c i x → disturbs c i x = false)
    (h : torchMachine.Reach good ⟨.loaded callbacks, []⟩ c) :
    Excluded c.shared (weigh onWeight c.threads) := by
  refine h.weigh_invariant onWeight Excluded ?_ ?_ ?_
  · exact ⟨fun _ => rfl, fun e he => absurd he List.not_mem_nil⟩
  · intro s k s' stack T henter he
    obtain ⟨rfl, hstack⟩ := enter_cases henter
    have hzero : weighList onWeight stack = 0 := by
      apply weighList_eq_zero
      intro j hj
      rw [onWeight, (hstack j hj).2]
      rfl
    rwa [hzero]
  · intro s A i rest B x o R hreach hstep hexec hR he
    have hi : i.Quiet := ((every_split A B i rest).mp (quiet hreach)).2
    rw [(exec_quiet hexec hi).2, weigh_nil, add_zero]
    refine exclusion_step hexec hi ?_ he
    rintro ⟨cameraId, rfl⟩ hdevice hcalloc hengine
    rw [hR]
    exact weigh_eq_zero_of_undisturbed (hgood _ _ _ hstep) hdevice hcalloc hengine

/-- **Torch and cameras**: one device at most is open, and one that does not open changes
nothing; and where no device opens while the torch goes on, the torch goes on, and is
reported on, only while no device is open. -/
theorem torch_excluded (hrun : torchMachine.Reach good ⟨.loaded callbacks, []⟩ c) :
    c.shared.opened.length ≤ 1 ∧
      (∀ hasModule id hasDevice s' stack,
        c.shared.enter (.openDevice hasModule id hasDevice) = some (s', stack) → s' = c.shared) ∧
      (∀ cameraId x o, Shared.exec (.openSection cameraId) x c.shared = some o →
        (c.shared.module.openSection cameraId x.calloc x.engine).1 ≠ 0 →
        o.shared.module = c.shared.module) ∧
      ((∀ c i x, good c i x → disturbs c i x = false) → ∀ e ∈ c.shared.log, SafeEvent e) := by
  refine ⟨?_, ?_, ?_, ?_⟩
  · rw [opened_eq hrun]
    cases c.shared.module.device
    · exact Nat.zero_le 1
    · exact Nat.le_refl 1
  · intro hasModule id hasDevice s' stack henter
    exact (enter_cases henter).1
  · intro cameraId x o hexec herror
    exact exec_openSection_of_error hexec herror
  · intro hgood
    exact (excluded hgood hrun).safe

end

/-! ## A device that opens after the check -/

/-- Nothing fails. -/
def answer : Answer := ⟨some 1, true, true⟩

/-- The torch is switched on; then the rear camera opens. -/
def torchThenOpen : List (Action Entry Answer) :=
  .call (.setTorchMode (some ['0']) true) :: List.replicate 10 (.run 0 answer) ++
    [.call (.openDevice true (some ['0']) true), .run 1 answer, .run 1 answer, .run 1 answer]

/-- The rear camera opens between the check and the writes. -/
def openAfterCheck : List (Action Entry Answer) :=
  [.call (.setTorchMode (some ['0']) true), .run 0 answer,
    .call (.openDevice true (some ['0']) true), .run 1 answer] ++
    List.replicate 9 (.run 0 answer)

/-- **The torch goes on**, and is reported on, while the rear camera is open. -/
theorem torch_not_excluded :
    let c := torchMachine.after (fun _ _ _ => true) ⟨.loaded (some ⟨true⟩), []⟩ openAfterCheck
    torchMachine.Reach AnyStep ⟨.loaded (some ⟨true⟩), []⟩ c ∧
      c.shared.opened = [⟨1, kRearCameraId⟩] ∧
      .wrote switchOn true (some ⟨1, kRearCameraId⟩) ∈ c.shared.log ∧
      .reported .availableOn (some ⟨1, kRearCameraId⟩) ∈ c.shared.log ∧
      ¬ ∀ e ∈ c.shared.log, SafeEvent e := by
  intro c
  have hwrote : .wrote switchOn true (some ⟨1, kRearCameraId⟩) ∈ c.shared.log := by
    decide
  have hreported : .reported .availableOn (some ⟨1, kRearCameraId⟩) ∈ c.shared.log := by
    decide
  refine ⟨reach_after (fun _ _ _ _ => trivial) rfl, rfl, hwrote, hreported, fun hsafe => ?_⟩
  exact absurd (hsafe _ hreported rfl) (Option.some_ne_none _)

/-- The torch goes on before the rear camera opens. -/
theorem torch_excluded_in_turn :
    let c := torchMachine.after (fun c i x => !disturbs c i x) ⟨.loaded (some ⟨true⟩), []⟩
      torchThenOpen
    c.shared.opened.length ≤ 1 ∧ c.shared.opened ≠ [] ∧ ∀ e ∈ c.shared.log, SafeEvent e := by
  intro c
  have hrun : torchMachine.Reach (fun c i x => disturbs c i x = false)
      ⟨.loaded (some ⟨true⟩), []⟩ c :=
    reach_after (fun _ _ _ hok => Bool.not_eq_true' _ ▸ hok) rfl
  obtain ⟨hone, -, -, hsafe⟩ := torch_excluded hrun
  exact ⟨hone, List.cons_ne_nil _ _, hsafe fun _ _ _ hgood => hgood⟩

end Pro5Android.Torch
