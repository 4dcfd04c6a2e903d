import Mathlib.Data.Int.Notation
import Mathlib.Data.Nat.Notation
import Mathlib.Tactic.SplitIfs

/-!
# The camera module and its torch

The state of `camera_m86_native3_module.cpp` that its lock protects, and the stretches
of `openDevice` (lines 557–602), `closeDevice` (lines 410–446), `setTorchMode` (lines
654–722) and `setCallbacks` (lines 627–640) that run under the lock. What the engine,
the allocator and sysfs answer is given to them. The handles are objects with an
address and the camera they were opened for.

Results:
* `parseCameraId_cases`: the cameras there are.
* `openSection_cases`: what opening does under the lock.
-/

namespace Pro5Android.Torch

/-! ## Cameras -/

def kCameraCount : ℤ := 2

def kRearCameraId : ℤ := 0

def kFrontCameraId : ℤ := 1

def einval : ℤ := -22
def ebusy : ℤ := -16
def enomem : ℤ := -12
def enosys : ℤ := -38

/-- `isValidCameraId` (lines 50–53). -/
def isValidCameraId (cameraId : ℤ) : Bool := decide (0 ≤ cameraId) && decide (cameraId < kCameraCount)

/-- `parseCameraId` (lines 55–63). -/
def parseCameraId : Option (List Char) → ℤ
  | some [c] =>
    let cameraId := (c.toNat : ℤ) - '0'.toNat
    if isValidCameraId cameraId then cameraId else -1
  | _ => -1

theorem parseCameraId_cases (id : Option (List Char)) :
    parseCameraId id = -1 ∨ parseCameraId id = kRearCameraId ∨
      parseCameraId id = kFrontCameraId := by
  unfold parseCameraId
  split
  · rename_i c
    dsimp only
    generalize (c.toNat : ℤ) - '0'.toNat = cameraId
    split_ifs with hvalid
    · rw [isValidCameraId, Bool.and_eq_true, decide_eq_true_iff, decide_eq_true_iff] at hvalid
      obtain ⟨hle, hlt⟩ := hvalid
      unfold kCameraCount at hlt
      unfold kRearCameraId kFrontCameraId
      omega
    · exact .inl rfl
  · exact .inl rfl

example : parseCameraId (some ['1']) = kFrontCameraId := by decide
example : parseCameraId (some ['2']) = -1 := by decide

/-! ## The module -/

/-- A `camera3_device_t` and the camera of its engine. -/
structure CameraDevice where
  address : ℕ
  cameraId : ℤ
  deriving DecidableEq

/-- The member of `camera_module_callbacks_t` that is tested for null. -/
structure Callbacks where
  torchModeStatusChange : Bool

/-- `torch_mode_status_t`. -/
inductive TorchModeStatus
  | notAvailable
  | availableOff
  | availableOn
  deriving DecidableEq

/-- The globals under `gLock` (lines 42–48). -/
structure Module where
  device : Option CameraDevice
  callbacks : Option Callbacks
  generation : BitVec 64
  openGeneration : BitVec 64
  torchEnabled : Bool

/-- The module that is loaded. -/
def Module.loaded : Module where
  device := none
  callbacks := none
  generation := 0
  openGeneration := 0
  torchEnabled := false

namespace Module

variable (m : Module)

/-- Whether a status is reported (lines 87, 636). -/
def reports : Bool := m.callbacks.any Callbacks.torchModeStatusChange

/-- `status` (lines 631–634). -/
def status : TorchModeStatus :=
  if m.device.isSome then .notAvailable
  else if m.torchEnabled then .availableOn
  else .availableOff

/-! ## Locked stretches -/

/-- `openDevice` under the lock (lines 564–594), on what `calloc` and `new` return. -/
def openSection (cameraId : ℤ) (calloc : Option ℕ) (engine : Bool) : ℤ × Module :=
  if m.device.isSome then (ebusy, m)
  else
    match calloc with
    | none => (enomem, m)
    | some address =>
      if engine then
        (0,
          { m with
            device := some ⟨address, cameraId⟩
            generation := m.generation + 1
            openGeneration := m.generation + 1 })
      else (enomem, m)

/-- `closeDevice` under the lock (lines 435–439). -/
def closeSection (camera : CameraDevice) : Module :=
  if m.device.map CameraDevice.address = some camera.address then { m with device := none } else m

/-- `setTorchMode` refuses (lines 665–668). -/
def refusesTorch : Bool := m.device.isSome

/-- `setTorchMode` commits (line 717). -/
def commitTorch (enabled : Bool) : Module := { m with torchEnabled := enabled }

variable {m}

/-- Opening fails and changes nothing, or opens the device. -/
theorem openSection_cases (cameraId : ℤ) (calloc : Option ℕ) (engine : Bool) :
    (∃ error, error ≠ 0 ∧ m.openSection cameraId calloc engine = (error, m)) ∨
    ∃ address, m.device = none ∧ calloc = some address ∧ engine = true ∧
      m.openSection cameraId calloc engine = (0,
        { m with
          device := some ⟨address, cameraId⟩
          generation := m.generation + 1
          openGeneration := m.generation + 1 }) := by
  unfold openSection
  cases hdevice : m.device with
  | some device => exact .inl ⟨ebusy, by decide, rfl⟩
  | none =>
    cases calloc with
    | none => exact .inl ⟨enomem, by decide, rfl⟩
    | some address =>
      cases engine with
      | false => exact .inl ⟨enomem, by decide, rfl⟩
      | true => exact .inr ⟨address, rfl, rfl, rfl, rfl⟩

end Module

/-! ## Writing to sysfs -/

/-- A value written to a file by `writeSysfs` (lines 65–80). -/
structure Write where
  path : String
  value : String
  deriving DecidableEq

/-- The torch goes on. -/
def switchOn : Write := ⟨"/sys/class/leds/torch0/onoff", "on\n"⟩

/-- What switches the torch on, in order (lines 673–690). -/
def onWrites : List Write :=
  [⟨"/sys/class/leds/torch0/hwen", "enable\n"⟩,
    ⟨"/sys/class/leds/torch0/brightness", "50000\n"⟩,
    ⟨"/sys/class/leds/torch1/brightness", "50000\n"⟩,
    ⟨"/sys/class/leds/torch0/enable", "enable\n"⟩,
    ⟨"/sys/class/leds/torch1/enable", "enable\n"⟩,
    switchOn]

/-- What switches it off, also where switching on failed (lines 692–695, 698–705). -/
def offWrites : List Write :=
  [⟨"/sys/class/leds/torch0/onoff", "off\n"⟩,
    ⟨"/sys/class/leds/torch0/enable", "disable\n"⟩,
    ⟨"/sys/class/leds/torch1/enable", "disable\n"⟩,
    ⟨"/sys/class/leds/torch0/hwen", "disable\n"⟩]

end Pro5Android.Torch
