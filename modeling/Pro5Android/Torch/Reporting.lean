import Pro5Android.Torch.Module
import Pro5Android.Lib.Runs
import Mathlib.Tactic.SplitIfs

/-!
# What the module reports of its torch

The callers run one call after the other. While callbacks are installed, the status
that was reported last for the rear camera is meant to be the status that
`setCallbacks` computes (lines 631–634): not available while a device is open, since
`setTorchMode` is refused then, and otherwise on or off as the torch is.

Three kinds of call lose this, because `openDevice` and `closeDevice` report for the
rear camera only (lines 442–444, 598–600), and `closeDevice` reports that the torch is
off without looking: opening and closing the front camera, and closing the rear camera
while the torch is on.

Results:
* `agrees_next_iff`: the calls that keep the report right.
* `report_agrees`: runs of such calls.
* `report_disagrees`: runs that end with a call of the other kinds.
-/

namespace Pro5Android.Torch

open Lib Lib.System

/-! ## Calls -/

/-- The module, and the status it reported last. -/
structure World where
  module : Module
  reported : Option TorchModeStatus

/-- A call of the module, with what the allocator, the engine and sysfs answer. -/
inductive Call
  | openDevice (hasModule : Bool) (id : Option (List Char)) (hasDevice : Bool)
      (calloc : Option ℕ) (engine : Bool)
  | closeDevice (device : Option CameraDevice) (released : Bool)
  | setTorchMode (id : Option (List Char)) (enabled : Bool) (sysfs : Write → ℤ)
  | setCallbacks (callbacks : Option Callbacks)

namespace World

/-- `notifyTorchStatus` (lines 82–90). -/
def notifyTorchStatus (status : TorchModeStatus) (w : World) : World :=
  if w.module.reports then { w with reported := some status } else w

/-- `openDevice` (lines 557–602). -/
def openDevice (hasModule : Bool) (id : Option (List Char)) (hasDevice : Bool)
    (calloc : Option ℕ) (engine : Bool) (w : World) : ℤ × World :=
  let cameraId := parseCameraId id
  if !hasModule || !hasDevice || decide (cameraId < 0) then (einval, w)
  else
    let (result, m) := w.module.openSection cameraId calloc engine
    let w := { w with module := m }
    if result ≠ 0 then (result, w)
    else if cameraId = kRearCameraId then (0, w.notifyTorchStatus .notAvailable)
    else (0, w)

/-- `closeDevice` (lines 410–446). -/
def closeDevice (device : Option CameraDevice) (released : Bool) (w : World) : ℤ × World :=
  match device with
  | none => (einval, w)
  | some camera =>
    let result := if released then 0 else einval
    let w := { w with module := w.module.closeSection camera }
    if camera.cameraId = kRearCameraId then (result, w.notifyTorchStatus .availableOff)
    else (result, w)

/-- `ret` of `setTorchMode` (lines 671–709): the first error of the writes. -/
def torchResult (enabled : Bool) (sysfs : Write → ℤ) : ℤ :=
  (((if enabled then onWrites else offWrites).map sysfs).find? (· ≠ 0)).getD 0

/-- `setTorchMode` (lines 654–722). -/
def setTorchMode (id : Option (List Char)) (enabled : Bool) (sysfs : Write → ℤ) (w : World) :
    ℤ × World :=
  let cameraId := parseCameraId id
  if cameraId < 0 then (einval, w)
  else if cameraId ≠ kRearCameraId then (enosys, w)
  else if w.module.refusesTorch then (ebusy, w)
  else
    let result := torchResult enabled sysfs
    if result ≠ 0 then (result, w)
    else
      let w := { w with module := w.module.commitTorch enabled }
      (0, w.notifyTorchStatus (if enabled then .availableOn else .availableOff))

/-- `setCallbacks` (lines 627–640). -/
def setCallbacks (callbacks : Option Callbacks) (w : World) : ℤ × World :=
  let w := { w with module := { w.module with callbacks := callbacks } }
  (0, w.notifyTorchStatus w.module.status)

/-- The calls. -/
def perform : Call → World → ℤ × World
  | .openDevice hasModule id hasDevice calloc engine, w =>
    w.openDevice hasModule id hasDevice calloc engine
  | .closeDevice device released, w => w.closeDevice device released
  | .setTorchMode id enabled sysfs, w => w.setTorchMode id enabled sysfs
  | .setCallbacks callbacks, w => w.setCallbacks callbacks

/-- A device is closed while it is open. -/
def Legal (w : World) : Call → Prop
  | .closeDevice (some camera) _ => w.module.device = some camera
  | _ => True

/-- The module that is loaded. -/
def loaded : World := ⟨.loaded, none⟩

end World

/-- The module under its callers. -/
def cameraModule : System World Call where
  legal := World.Legal
  next w call := (w.perform call).2

/-! ## Agreement -/

/-- While callbacks are installed, the last report is the status of the module. -/
def Agrees (w : World) : Prop := w.module.reports = true → w.reported = some w.module.status

/-- The call opens the front camera, closes it, or closes the rear camera while the
    torch is on. -/
def Misreports (w : World) : Call → Prop
  | .openDevice hasModule id hasDevice calloc engine =>
    w.module.reports = true ∧ parseCameraId id = kFrontCameraId ∧ hasModule = true ∧
      hasDevice = true ∧ w.module.device = none ∧ calloc.isSome = true ∧ engine = true
  | .closeDevice (some camera) _ =>
    w.module.reports = true ∧ (camera.cameraId ≠ kRearCameraId ∨ w.module.torchEnabled = true)
  | _ => False

/-- What agreement says: not available just if `setTorchMode` is refused, and otherwise
    on just if the torch is on. -/
theorem Agrees.reported_iff {w : World} (ha : Agrees w) (hreports : w.module.reports = true) :
    (w.reported = some .notAvailable ↔ w.module.refusesTorch = true) ∧
      (w.module.refusesTorch = false →
        (w.reported = some .availableOn ↔ w.module.torchEnabled = true)) := by
  rw [ha hreports, Module.status, Module.refusesTorch]
  cases hdevice : w.module.device.isSome <;> cases htorch : w.module.torchEnabled <;> decide

section

variable {w : World}

theorem agrees_notifyTorchStatus {status : TorchModeStatus} :
    Agrees (w.notifyTorchStatus status) ↔
      (w.module.reports = true → w.module.status = status) := by
  unfold World.notifyTorchStatus
  split_ifs with hreports
  · constructor
    · intro ha _
      exact (Option.some.inj (ha hreports)).symm
    · intro hstatus _
      rw [hstatus hreports]
  · exact iff_of_true (fun h => absurd h hreports) fun h => absurd h hreports

/-- While no device is open, the report is not that of an open one. -/
theorem Agrees.reported_ne (ha : Agrees w) (hdevice : w.module.device = none)
    (hreports : w.module.reports = true) : w.reported ≠ some .notAvailable := by
  rw [ha hreports, Module.status, hdevice]
  cases w.module.torchEnabled <;> decide

theorem agrees_openDevice (ha : Agrees w) (hasModule : Bool) (id : Option (List Char))
    (hasDevice : Bool) (calloc : Option ℕ) (engine : Bool) :
    Agrees (w.openDevice hasModule id hasDevice calloc engine).2 ↔
      ¬ Misreports w (.openDevice hasModule id hasDevice calloc engine) := by
  unfold World.openDevice
  dsimp only
  by_cases hargs : (!hasModule || !hasDevice || decide (parseCameraId id < 0)) = true
  · rw [if_pos hargs]
    refine iff_of_true ha ?_
    rintro ⟨-, hfront, rfl, rfl, -⟩
    rw [hfront] at hargs
    exact absurd hargs (by decide)
  · rw [if_neg hargs]
    obtain ⟨error, herror, heq⟩ | ⟨address, hdevice, rfl, rfl, heq⟩ :=
      Module.openSection_cases (m := w.module) (parseCameraId id) calloc engine
    · rw [heq]
      dsimp only
      rw [if_pos herror]
      refine iff_of_true ha ?_
      rintro ⟨-, -, -, -, hdevice, hcalloc, rfl⟩
      obtain ⟨address, rfl⟩ := Option.isSome_iff_exists.mp hcalloc
      have hopened := congrArg Prod.fst heq
      rw [Module.openSection, hdevice] at hopened
      exact herror hopened.symm
    · rw [heq]
      dsimp only
      rw [if_neg (not_not_intro rfl)]
      by_cases hrear : parseCameraId id = kRearCameraId
      · rw [if_pos hrear]
        refine iff_of_true (agrees_notifyTorchStatus.mpr fun _ => rfl) ?_
        rintro ⟨-, hfront, -⟩
        exact absurd (hrear.symm.trans hfront) (by decide)
      · rw [if_neg hrear]
        have hfront : parseCameraId id = kFrontCameraId := by
          obtain hneg | hzero | hone := parseCameraId_cases id
          · rw [hneg] at hargs
            simp at hargs
          · exact absurd hzero hrear
          · exact hone
        have hargs' : hasModule = true ∧ hasDevice = true := by
          cases hasModule <;> cases hasDevice <;> simp at hargs ⊢
        constructor
        · rintro ha' ⟨hreports, -⟩
          exact ha.reported_ne hdevice hreports (ha' hreports)
        · intro hnot hreports
          exact absurd ⟨hreports, hfront, hargs'.1, hargs'.2, hdevice, rfl, rfl⟩ hnot

theorem agrees_closeDevice (ha : Agrees w) {device : Option CameraDevice} {released : Bool}
    (hlegal : w.Legal (.closeDevice device released)) :
    Agrees (w.closeDevice device released).2 ↔ ¬ Misreports w (.closeDevice device released) := by
  cases device with
  | none => exact iff_of_true ha id
  | some camera =>
    have hdevice : w.module.device = some camera := hlegal
    have hclosed : w.module.closeSection camera = { w.module with device := none } := by
      rw [Module.closeSection, hdevice]
      exact if_pos rfl
    unfold World.closeDevice
    dsimp only
    rw [hclosed]
    by_cases hrear : camera.cameraId = kRearCameraId
    · rw [if_pos hrear, agrees_notifyTorchStatus]
      constructor
      · rintro hstatus ⟨hreports, hother | htorch⟩
        · exact hother hrear
        · have hoff := hstatus hreports
          rw [Module.status, htorch] at hoff
          cases hoff
      · intro hnot hreports
        have htorch : w.module.torchEnabled = false := by
          rw [← Bool.not_eq_true]
          exact fun htorch => hnot ⟨hreports, .inr htorch⟩
        rw [Module.status, htorch]
        rfl
    · rw [if_neg hrear]
      constructor
      · rintro ha' ⟨hreports, -⟩
        have hsame : w.reported = some .notAvailable := by
          rw [ha hreports, Module.status, hdevice]
          rfl
        exact Agrees.reported_ne ha' rfl hreports hsame
      · intro hnot hreports
        exact absurd ⟨hreports, .inl hrear⟩ hnot

theorem agrees_setTorchMode (ha : Agrees w) (id : Option (List Char)) (enabled : Bool)
    (sysfs : Write → ℤ) : Agrees (w.setTorchMode id enabled sysfs).2 := by
  unfold World.setTorchMode
  dsimp only
  split_ifs with hid hrear hrefuses hresult henabled
  · exact ha
  · exact ha
  · exact ha
  · exact ha
  · have hdevice : w.module.device = none := Option.not_isSome_iff_eq_none.mp hrefuses
    rw [agrees_notifyTorchStatus, Module.status, Module.commitTorch, hdevice, henabled]
    exact fun _ => rfl
  · have hdevice : w.module.device = none := Option.not_isSome_iff_eq_none.mp hrefuses
    rw [Bool.not_eq_true] at henabled
    rw [agrees_notifyTorchStatus, Module.status, Module.commitTorch, hdevice, henabled]
    exact fun _ => rfl

theorem agrees_setCallbacks (callbacks : Option Callbacks) :
    Agrees (w.setCallbacks callbacks).2 := by
  show Agrees (World.notifyTorchStatus _ _)
  exact agrees_notifyTorchStatus.mpr fun _ => rfl

/-- **The calls that keep the report right** are those that do not misreport. -/
theorem agrees_next_iff (ha : Agrees w) {call : Call} (hlegal : w.Legal call) :
    Agrees (w.perform call).2 ↔ ¬ Misreports w call := by
  cases call with
  | openDevice hasModule id hasDevice calloc engine =>
    exact agrees_openDevice ha hasModule id hasDevice calloc engine
  | closeDevice device released => exact agrees_closeDevice ha hlegal
  | setTorchMode id enabled sysfs => exact iff_of_true (agrees_setTorchMode ha id enabled sysfs) (fun h => h)
  | setCallbacks callbacks => exact iff_of_true (agrees_setCallbacks callbacks) (fun h => h)

/-- **The report agrees with the module** after every call of the runs in which no call
    misreports, and a call more keeps agreement just if it does not misreport. -/
theorem report_agrees
    (hrun : cameraModule.Reach (fun w call => ¬ Misreports w call) .loaded w) :
    Agrees w ∧ ∀ call : Call, w.Legal call → (Agrees (w.perform call).2 ↔ ¬ Misreports w call) := by
  have ha : Agrees w := by
    have hloaded : Agrees .loaded := fun h => absurd h Bool.false_ne_true
    refine hrun.invariant Agrees hloaded ?_
    exact fun hlegal hgood ha => (agrees_next_iff ha hlegal).mpr hgood
  exact ⟨ha, fun call hlegal => agrees_next_iff ha hlegal⟩

end

/-! ## Disagreement -/

/-- Callbacks that are installed. -/
def installed : Option Callbacks := some ⟨true⟩

/-- A device is opened for a camera, at an address. -/
def openCall (digit : Char) (address : ℕ) : Call :=
  .openDevice true (some [digit]) true (some address) true

/-- **The report is wrong** after the front camera is opened, after it is closed, and
    after the rear camera is closed while the torch is on. -/
theorem report_disagrees :
    let frontOpened : List Call := [.setCallbacks installed, openCall '1' 1]
    let frontClosed : List Call :=
      [openCall '1' 1, .setCallbacks installed, .closeDevice (some ⟨1, kFrontCameraId⟩) true]
    let torchClosed : List Call :=
      [.setCallbacks installed, .setTorchMode (some ['0']) true fun _ => 0, openCall '0' 1,
        .closeDevice (some ⟨1, kRearCameraId⟩) true]
    ∀ calls ∈ [frontOpened, frontClosed, torchClosed],
      cameraModule.Reach AnyInput .loaded (cameraModule.after .loaded calls) ∧
        ¬ Agrees (cameraModule.after .loaded calls) := by
  intro frontOpened frontClosed torchClosed calls hcalls
  simp only [List.mem_cons, List.not_mem_nil, or_false] at hcalls
  rcases hcalls with rfl | rfl | rfl
  · refine ⟨reach_after ⟨trivial, trivial, trivial, trivial, trivial⟩, fun ha => ?_⟩
    exact absurd (ha rfl) (by decide)
  · refine ⟨reach_after ⟨trivial, trivial, trivial, trivial, rfl, trivial, trivial⟩, fun ha => ?_⟩
    exact absurd (ha rfl) (by decide)
  · refine ⟨reach_after ⟨trivial, trivial, trivial, trivial, trivial, trivial, rfl, trivial,
      trivial⟩, fun ha => ?_⟩
    exact absurd (ha rfl) (by decide)

/-- The torch goes on and off, and the rear camera is opened. -/
theorem report_agrees_rear :
    Agrees (cameraModule.after .loaded
      [.setCallbacks installed, .setTorchMode (some ['0']) true fun _ => 0,
        .setTorchMode (some ['0']) false fun _ => 0, openCall '0' 1]) := by
  have hallowed : cameraModule.Allowed (fun w call => ¬ Misreports w call) .loaded
      [.setCallbacks installed, .setTorchMode (some ['0']) true fun _ => 0,
        .setTorchMode (some ['0']) false fun _ => 0, openCall '0' 1] := by
    refine ⟨trivial, id, trivial, id, trivial, id, trivial, ?_, trivial⟩
    rintro ⟨-, hfront, -⟩
    exact absurd hfront (by decide)
  exact (report_agrees (reach_after hallowed)).1

end Pro5Android.Torch
