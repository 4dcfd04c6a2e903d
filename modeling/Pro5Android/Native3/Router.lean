import Mathlib.Data.Int.Notation
import Mathlib.Data.Nat.Notation
import Mathlib.Data.List.Nodup
import Mathlib.Logic.Function.Basic
import Mathlib.Tactic.SplitIfs

/-!
# The stream configurations of the native camera module

What `camera_m86_native3_module.cpp` advertises (lines 112–173) and what
`ExynosCamera3StreamRouterM86.cpp` accepts (lines 63–146). The tables stand in both
files.

The router asks for more than the tables promise: a list of streams has one role at
most once, and it has a processed stream.

Results:
* `classify_of_fits`, `fits_of_classify`: the classifier agrees with the tables.
* `rolesLoop_eq_some_iff`: the loop over the streams.
* `validateConfiguration_refuses`: two lists that the tables promise and the router
  does not accept.
* `validateConfiguration_eq_zero_iff`: what the router accepts.
-/

namespace Pro5Android.Native3

/-! ## Data -/

def einval : ℤ := 22

/-- `camera3_stream_type_t`. -/
inductive StreamType
  | output
  | input
  | bidirectional
  deriving DecidableEq

/-- `android_pixel_format_t`, the values of it that are read here. -/
def halPixelFormatBlob : ℤ := 0x21

def halPixelFormatImplementationDefined : ℤ := 0x22

def halPixelFormatYCbCr420_888 : ℤ := 0x23

/-- The raw formats: `RAW16`, `RAW_OPAQUE`, `RAW10` and `RAW12`. -/
def halPixelFormatsRaw : List ℤ := [0x20, 0x24, 0x25, 0x26]

/-- `GRALLOC_USAGE_*`. -/
def usageHwTexture : BitVec 64 := 0x100#64

def usageHwComposer : BitVec 64 := 0x800#64

def usageHwVideoEncoder : BitVec 64 := 0x10000#64

/-- `camera3_stream_t`, what is read of it; the usage is widened. -/
structure Stream where
  streamType : StreamType
  width : ℕ
  height : ℕ
  format : ℤ
  usage : BitVec 64
  deriving DecidableEq

/-- `camera3_stream_configuration_t`; `none` is a null pointer. -/
structure StreamConfiguration where
  streams : Option (List (Option Stream))

/-- `Size`. -/
structure Size where
  width : ℕ
  height : ℕ
  deriving DecidableEq

/-! ## What the module advertises -/

/-- An entry of `streamConfigs`, all of which are for output. -/
structure StreamConfig where
  format : ℤ
  width : ℕ
  height : ℕ
  deriving DecidableEq

/-- `rearJpegSizes`. -/
def rearJpegSizes : List Size :=
  [⟨5312, 3984⟩, ⟨5312, 2988⟩, ⟨4160, 3120⟩, ⟨2656, 1992⟩, ⟨1920, 1080⟩]

/-- `frontJpegSizes`. -/
def frontJpegSizes : List Size := [⟨2592, 1944⟩, ⟨2592, 1458⟩, ⟨1920, 1080⟩, ⟨640, 480⟩]

/-- `streamConfigs`: the sizes of the processed streams, then those of the JPEG. -/
def streamConfigs (cameraId : ℤ) : List StreamConfig :=
  [⟨halPixelFormatImplementationDefined, 1920, 1080⟩,
    ⟨halPixelFormatImplementationDefined, 1440, 1080⟩,
    ⟨halPixelFormatImplementationDefined, 1280, 720⟩,
    ⟨halPixelFormatYCbCr420_888, 1920, 1080⟩,
    ⟨halPixelFormatYCbCr420_888, 1440, 1080⟩,
    ⟨halPixelFormatYCbCr420_888, 1280, 720⟩] ++
  (if cameraId = 1 then frontJpegSizes else rearJpegSizes).map fun size =>
    ⟨halPixelFormatBlob, size.width, size.height⟩

/-- The kinds of streams that `maxOutputStreams` tells apart. -/
inductive StreamKind
  | raw
  | processed
  | jpeg
  deriving DecidableEq

/-- `maxOutputStreams`. -/
def maxOutputStreams : StreamKind → ℕ
  | .raw => 0
  | .processed => 2
  | .jpeg => 1

/-! ## What the router accepts -/

/-- `StreamRole`. -/
inductive StreamRole
  | invalid
  | preview
  | video
  | callback
  | jpeg
  deriving DecidableEq

/-- `kRearJpegSizes`. -/
def kRearJpegSizes : List Size :=
  [⟨5312, 3984⟩, ⟨5312, 2988⟩, ⟨4160, 3120⟩, ⟨2656, 1992⟩, ⟨1920, 1080⟩]

/-- `kFrontJpegSizes`. -/
def kFrontJpegSizes : List Size := [⟨2592, 1944⟩, ⟨2592, 1458⟩, ⟨1920, 1080⟩, ⟨640, 480⟩]

/-- `containsSize`. -/
def containsSize (sizes : List Size) (width height : ℕ) : Bool :=
  sizes.any fun size => size.width == width && size.height == height

/-- `isProcessedSize`. -/
def isProcessedSize (width height : ℕ) : Bool :=
  (width == 1920 && height == 1080) || (width == 1440 && height == 1080) ||
    (width == 1280 && height == 720)

/-- `classify` (lines 63–98). -/
def classify (cameraId : ℤ) : Option Stream → StreamRole
  | none => .invalid
  | some stream =>
    if stream.streamType ≠ .output then .invalid
    else if stream.format = halPixelFormatBlob then
      let rear := cameraId == 0 && containsSize kRearJpegSizes stream.width stream.height
      let front := cameraId == 1 && containsSize kFrontJpegSizes stream.width stream.height
      if rear || front then .jpeg else .invalid
    else if !isProcessedSize stream.width stream.height then .invalid
    else if stream.usage &&& usageHwVideoEncoder ≠ 0 ∧
        stream.format = halPixelFormatImplementationDefined then .video
    else if stream.format = halPixelFormatYCbCr420_888 then .callback
    else if stream.format = halPixelFormatImplementationDefined ∧
        stream.usage &&& (usageHwTexture ||| usageHwComposer) ≠ 0 then .preview
    else .invalid

/-- The loop of `validateConfiguration` (lines 115–137), on `roles`, `processedCount`
    and `jpegCount`; `none` is `return -EINVAL`. -/
def rolesLoop (cameraId : ℤ) : List (Option Stream) → (StreamRole → Bool) → ℕ → ℕ →
    Option (ℕ × ℕ)
  | [], _, processedCount, jpegCount => some (processedCount, jpegCount)
  | stream :: streams, roles, processedCount, jpegCount =>
    let role := classify cameraId stream
    if role = .invalid ∨ roles role = true then none
    else
      let roles := Function.update roles role true
      if role = .jpeg then rolesLoop cameraId streams roles processedCount (jpegCount + 1)
      else rolesLoop cameraId streams roles (processedCount + 1) jpegCount

/-- `validateConfiguration` (lines 100–146). -/
def validateConfiguration (cameraId : ℤ) (configuration : Option StreamConfiguration) : ℤ :=
  match configuration.bind StreamConfiguration.streams with
  | none => -einval
  | some streams =>
    if streams.length < 1 ∨ streams.length > 3 ∨ (cameraId ≠ 0 ∧ cameraId ≠ 1) then -einval
    else
      match rolesLoop cameraId streams (fun _ => false) 0 0 with
      | none => -einval
      | some (processedCount, jpegCount) =>
        if processedCount < 1 ∨ processedCount > 2 ∨ jpegCount > 1 then -einval else 0

/-! ## The contract -/

/-- The kind of a stream, by its format. -/
def Stream.kind (stream : Stream) : StreamKind :=
  if stream.format = halPixelFormatBlob then .jpeg
  else if stream.format ∈ halPixelFormatsRaw then .raw
  else .processed

/-- The role of a stream, by its format and whether its frames are encoded. -/
def Stream.role (stream : Stream) : StreamRole :=
  if stream.format = halPixelFormatBlob then .jpeg
  else if stream.format = halPixelFormatYCbCr420_888 then .callback
  else if stream.usage &&& usageHwVideoEncoder ≠ 0 then .video
  else .preview

/-- The static metadata lists the format and size of the stream. -/
def Listed (cameraId : ℤ) (stream : Stream) : Prop :=
  (⟨stream.format, stream.width, stream.height⟩ : StreamConfig) ∈ streamConfigs cameraId

/-- An `IMPLEMENTATION_DEFINED` stream says what it is used for. -/
def Stream.UsageGiven (stream : Stream) : Prop :=
  stream.format = halPixelFormatImplementationDefined →
    stream.usage &&& usageHwVideoEncoder ≠ 0 ∨
      stream.usage &&& (usageHwTexture ||| usageHwComposer) ≠ 0

/-- The number of streams of a kind. -/
def count (kind : StreamKind) (streams : List Stream) : ℕ :=
  streams.countP fun stream => stream.kind == kind

/-- A list of streams that the static metadata promises. -/
structure Advertised (cameraId : ℤ) (streams : List Stream) : Prop where
  nonempty : streams ≠ []
  output : ∀ stream ∈ streams, stream.streamType = .output
  listed : ∀ stream ∈ streams, Listed cameraId stream
  usageGiven : ∀ stream ∈ streams, stream.UsageGiven
  count_le : ∀ kind, count kind streams ≤ maxOutputStreams kind

/-! ## The classifier -/

section

variable {cameraId : ℤ} {stream : Stream}

theorem containsSize_iff (sizes : List Size) (width height : ℕ) :
    containsSize sizes width height = true ↔ (⟨width, height⟩ : Size) ∈ sizes := by
  unfold containsSize
  rw [List.any_eq_true]
  constructor
  · rintro ⟨size, hmem, hsize⟩
    rw [Bool.and_eq_true, beq_iff_eq, beq_iff_eq] at hsize
    rw [← hsize.1, ← hsize.2]
    exact hmem
  · intro hmem
    exact ⟨_, hmem, by rw [Bool.and_eq_true, beq_iff_eq, beq_iff_eq]; exact ⟨rfl, rfl⟩⟩

/-- The sizes of the JPEG that the router has for a camera. -/
def jpegSizes (cameraId : ℤ) : List Size := if cameraId = 1 then kFrontJpegSizes else kRearJpegSizes

theorem jpeg_test_iff (hcamera : cameraId = 0 ∨ cameraId = 1) (width height : ℕ) :
    ((cameraId == 0 && containsSize kRearJpegSizes width height) ||
      (cameraId == 1 && containsSize kFrontJpegSizes width height)) = true ↔
    (⟨width, height⟩ : Size) ∈ jpegSizes cameraId := by
  obtain rfl | rfl := hcamera
  · show (containsSize kRearJpegSizes width height || false) = true ↔ _
    rw [Bool.or_false]
    exact containsSize_iff _ _ _
  · show (false || containsSize kFrontJpegSizes width height) = true ↔ _
    rw [Bool.false_or]
    exact containsSize_iff _ _ _

/-- The tables of the two files say the same. -/
theorem listed_iff (cameraId : ℤ) (stream : Stream) :
    Listed cameraId stream ↔
      (stream.format = halPixelFormatImplementationDefined ∨
        stream.format = halPixelFormatYCbCr420_888) ∧
        isProcessedSize stream.width stream.height = true ∨
      stream.format = halPixelFormatBlob ∧
        (⟨stream.width, stream.height⟩ : Size) ∈ jpegSizes cameraId := by
  unfold Listed streamConfigs
  rw [List.mem_append]
  refine or_congr ?_ ?_
  · simp only [List.mem_cons, List.not_mem_nil, StreamConfig.mk.injEq, isProcessedSize,
      Bool.or_eq_true, Bool.and_eq_true, beq_iff_eq]
    grind
  · show _ ∈ (jpegSizes cameraId).map _ ↔ _
    rw [List.mem_map]
    constructor
    · rintro ⟨size, hmem, hconfig⟩
      obtain ⟨hformat, hwidth, hheight⟩ := StreamConfig.mk.inj hconfig
      rw [← hwidth, ← hheight]
      exact ⟨hformat.symm, hmem⟩
    · rintro ⟨hformat, hmem⟩
      exact ⟨_, hmem, by rw [hformat]⟩

/-- A stream that the module promises by itself. -/
structure Fits (cameraId : ℤ) (stream : Stream) : Prop where
  output : stream.streamType = .output
  listed : Listed cameraId stream
  usageGiven : stream.UsageGiven

theorem role_ne_invalid (stream : Stream) : stream.role ≠ .invalid := by
  unfold Stream.role
  split_ifs
  all_goals decide

theorem classify_blob_cases (hcamera : cameraId = 0 ∨ cameraId = 1)
    (houtput : stream.streamType = .output) (hblob : stream.format = halPixelFormatBlob) :
    (Fits cameraId stream ∧ classify cameraId (some stream) = stream.role) ∨
    (¬ Fits cameraId stream ∧ classify cameraId (some stream) = .invalid) := by
  have himplementation : stream.format ≠ halPixelFormatImplementationDefined := by
    rw [hblob]
    decide
  have hcallback : stream.format ≠ halPixelFormatYCbCr420_888 := by
    rw [hblob]
    decide
  unfold classify Stream.role
  dsimp only
  rw [if_neg (not_not_intro houtput), if_pos hblob, if_pos hblob]
  by_cases hsize : (⟨stream.width, stream.height⟩ : Size) ∈ jpegSizes cameraId
  · rw [if_pos ((jpeg_test_iff hcamera _ _).mpr hsize)]
    exact .inl ⟨⟨houtput, (listed_iff cameraId stream).mpr (.inr ⟨hblob, hsize⟩),
      fun h => absurd h himplementation⟩, rfl⟩
  · rw [if_neg fun h => hsize ((jpeg_test_iff hcamera _ _).mp h)]
    refine .inr ⟨fun hfits => ?_, rfl⟩
    obtain ⟨hformat, -⟩ | ⟨-, hlisted⟩ := (listed_iff cameraId stream).mp hfits.listed
    · exact hformat.elim himplementation hcallback
    · exact hsize hlisted

theorem classify_processed_cases (houtput : stream.streamType = .output)
    (hblob : stream.format ≠ halPixelFormatBlob) :
    (Fits cameraId stream ∧ classify cameraId (some stream) = stream.role) ∨
    (¬ Fits cameraId stream ∧ classify cameraId (some stream) = .invalid) := by
  have hlisted : Listed cameraId stream ↔
      (stream.format = halPixelFormatImplementationDefined ∨
        stream.format = halPixelFormatYCbCr420_888) ∧
        isProcessedSize stream.width stream.height = true := by
    rw [listed_iff]
    exact or_iff_left fun h => hblob h.1
  unfold classify Stream.role
  dsimp only
  rw [if_neg (not_not_intro houtput), if_neg hblob, if_neg hblob]
  cases hsize : isProcessedSize stream.width stream.height with
  | false =>
    refine .inr ⟨fun hfits => ?_, rfl⟩
    exact Bool.false_ne_true (hsize.symm.trans (hlisted.mp hfits.listed).2)
  | true =>
    rw [if_neg (by decide)]
    by_cases himplementation : stream.format = halPixelFormatImplementationDefined
    · have hcallback : stream.format ≠ halPixelFormatYCbCr420_888 := by
        rw [himplementation]
        decide
      have hlist : Listed cameraId stream := hlisted.mpr ⟨.inl himplementation, hsize⟩
      rw [if_neg hcallback, if_neg hcallback]
      by_cases hencoder : stream.usage &&& usageHwVideoEncoder ≠ 0
      · rw [if_pos ⟨hencoder, himplementation⟩, if_pos hencoder]
        exact .inl ⟨⟨houtput, hlist, fun _ => .inl hencoder⟩, rfl⟩
      · rw [if_neg fun h => hencoder h.1, if_neg hencoder]
        by_cases hpreview : stream.usage &&& (usageHwTexture ||| usageHwComposer) ≠ 0
        · rw [if_pos ⟨himplementation, hpreview⟩]
          exact .inl ⟨⟨houtput, hlist, fun _ => .inr hpreview⟩, rfl⟩
        · rw [if_neg fun h => hpreview h.2]
          refine .inr ⟨fun hfits => ?_, rfl⟩
          exact (hfits.usageGiven himplementation).elim hencoder hpreview
    · rw [if_neg fun h => himplementation h.2]
      by_cases hcallback : stream.format = halPixelFormatYCbCr420_888
      · rw [if_pos hcallback, if_pos hcallback]
        exact .inl ⟨⟨houtput, hlisted.mpr ⟨.inr hcallback, hsize⟩,
          fun h => absurd h himplementation⟩, rfl⟩
      · rw [if_neg hcallback, if_neg fun h => himplementation h.1]
        refine .inr ⟨fun hfits => ?_, rfl⟩
        exact (hlisted.mp hfits.listed).1.elim himplementation hcallback

/-- **The classifier** gives a stream that the tables promise its role, and no other. -/
theorem classify_cases (hcamera : cameraId = 0 ∨ cameraId = 1) (stream : Stream) :
    (Fits cameraId stream ∧ classify cameraId (some stream) = stream.role) ∨
    (¬ Fits cameraId stream ∧ classify cameraId (some stream) = .invalid) := by
  by_cases houtput : stream.streamType = .output
  · by_cases hblob : stream.format = halPixelFormatBlob
    · exact classify_blob_cases hcamera houtput hblob
    · exact classify_processed_cases houtput hblob
  · exact .inr ⟨fun hfits => houtput hfits.output, if_pos houtput⟩

theorem classify_of_fits (hcamera : cameraId = 0 ∨ cameraId = 1) (h : Fits cameraId stream) :
    classify cameraId (some stream) = stream.role := by
  obtain ⟨-, hrole⟩ | ⟨hnot, -⟩ := classify_cases hcamera stream
  · exact hrole
  · exact absurd h hnot

theorem fits_of_classify (hcamera : cameraId = 0 ∨ cameraId = 1)
    (h : classify cameraId (some stream) ≠ .invalid) : Fits cameraId stream := by
  obtain ⟨hfits, -⟩ | ⟨-, hinvalid⟩ := classify_cases hcamera stream
  · exact hfits
  · exact absurd hinvalid h

/-- No raw stream is listed, and the JPEG streams are the ones with that role. -/
theorem kind_of_listed (h : Listed cameraId stream) :
    stream.kind = if stream.role = .jpeg then .jpeg else .processed := by
  unfold Stream.kind Stream.role
  obtain ⟨hformat, -⟩ | ⟨hblob, -⟩ := (listed_iff cameraId stream).mp h
  · have hblob : stream.format ≠ halPixelFormatBlob := by
      obtain h | h := hformat
      · rw [h]
        decide
      · rw [h]
        decide
    have hraw : stream.format ∉ halPixelFormatsRaw := by
      obtain h | h := hformat
      · rw [h]
        decide
      · rw [h]
        decide
    rw [if_neg hblob, if_neg hraw, if_neg hblob, if_neg]
    split_ifs
    all_goals decide
  · rw [if_pos hblob, if_pos hblob]
    rfl

end

/-! ## The loop over the streams -/

/-- **The loop** goes through when every role is valid, new and met once; it counts the
    streams. -/
theorem rolesLoop_eq_some_iff (cameraId : ℤ) (streams : List (Option Stream))
    (roles : StreamRole → Bool) (processedCount jpegCount processed jpeg : ℕ) :
    rolesLoop cameraId streams roles processedCount jpegCount = some (processed, jpeg) ↔
      (∀ role ∈ streams.map (classify cameraId), role ≠ .invalid ∧ roles role = false) ∧
      (streams.map (classify cameraId)).Nodup ∧
      processed = processedCount + (streams.map (classify cameraId)).countP (· != .jpeg) ∧
      jpeg = jpegCount + (streams.map (classify cameraId)).countP (· == .jpeg) := by
  induction streams generalizing roles processedCount jpegCount with
  | nil =>
    rw [rolesLoop, Option.some.injEq, Prod.mk.injEq]
    simp only [List.map_nil, List.not_mem_nil, false_implies, implies_true, List.nodup_nil,
      List.countP_nil, Nat.add_zero, true_and]
    exact and_congr eq_comm eq_comm
  | cons stream streams ih =>
    rw [rolesLoop]
    dsimp only
    simp only [List.map_cons, List.forall_mem_cons, List.nodup_cons, List.countP_cons]
    generalize classify cameraId stream = role
    by_cases hrefused : role = .invalid ∨ roles role = true
    · rw [if_pos hrefused]
      refine iff_of_false (Option.some_ne_none _).symm ?_
      rintro ⟨⟨⟨hvalid, hnew⟩, -⟩, -⟩
      obtain h | h := hrefused
      · exact hvalid h
      · exact Bool.false_ne_true (hnew.symm.trans h)
    · rw [if_neg hrefused]
      obtain ⟨hvalid, hnew⟩ := not_or.mp hrefused
      rw [Bool.not_eq_true] at hnew
      -- what is new after this role is what is new before and different from it
      have hroles : (∀ r ∈ streams.map (classify cameraId),
          r ≠ .invalid ∧ Function.update roles role true r = false) ↔
          (∀ r ∈ streams.map (classify cameraId), r ≠ .invalid ∧ roles r = false) ∧
          role ∉ streams.map (classify cameraId) := by
        constructor
        · intro h
          have hnot : role ∉ streams.map (classify cameraId) := by
            intro hmem
            have hfalse := (h role hmem).2
            rw [Function.update_self] at hfalse
            exact Bool.false_ne_true hfalse.symm
          refine ⟨fun r hr => ⟨(h r hr).1, ?_⟩, hnot⟩
          have hne : r ≠ role := fun heq => hnot (heq ▸ hr)
          have hfalse := (h r hr).2
          rw [Function.update_of_ne hne] at hfalse
          exact hfalse
        · rintro ⟨h, hnot⟩ r hr
          have hne : r ≠ role := fun heq => hnot (heq ▸ hr)
          rw [Function.update_of_ne hne]
          exact h r hr
      by_cases hjpeg : role = .jpeg
      · rw [if_pos hjpeg, ih, hroles]
        subst hjpeg
        simp only [hnew, hvalid, ne_eq, not_false_eq_true, true_and, bne_self_eq_false,
          Bool.false_eq_true, if_false, beq_self_eq_true, if_true, Nat.add_zero, and_assoc]
        rw [Nat.add_assoc, Nat.add_comm 1]
      · rw [if_neg hjpeg, ih, hroles]
        simp only [hnew, hvalid, hjpeg, ne_eq, not_false_eq_true, true_and, bne_iff_ne,
          beq_iff_eq, if_true, if_false, Nat.add_zero, and_assoc]
        rw [Nat.add_assoc, Nat.add_comm 1]

/-! ## The validation -/

section

variable {cameraId : ℤ} {streams : List Stream}

theorem map_classify (hcamera : cameraId = 0 ∨ cameraId = 1)
    (h : ∀ stream ∈ streams, Fits cameraId stream) :
    (streams.map some).map (classify cameraId) = streams.map Stream.role := by
  rw [List.map_map]
  exact List.map_congr_left fun stream hmem => classify_of_fits hcamera (h stream hmem)

theorem count_jpeg (h : ∀ stream ∈ streams, Listed cameraId stream) :
    count .jpeg streams = (streams.map Stream.role).countP (· == .jpeg) := by
  unfold count
  rw [List.countP_map]
  refine List.countP_congr fun stream hmem => ?_
  rw [kind_of_listed (h stream hmem), Function.comp_apply, beq_iff_eq, beq_iff_eq]
  split_ifs with hrole
  · exact iff_of_true rfl hrole
  · exact iff_of_false (by decide) hrole

theorem count_processed (h : ∀ stream ∈ streams, Listed cameraId stream) :
    count .processed streams = (streams.map Stream.role).countP (· != .jpeg) := by
  unfold count
  rw [List.countP_map]
  refine List.countP_congr fun stream hmem => ?_
  rw [kind_of_listed (h stream hmem), Function.comp_apply, beq_iff_eq, bne_iff_ne]
  split_ifs with hrole
  · exact iff_of_false (by decide) (not_not_intro hrole)
  · exact iff_of_true rfl hrole

theorem count_raw (h : ∀ stream ∈ streams, Listed cameraId stream) : count .raw streams = 0 := by
  unfold count
  rw [List.countP_eq_zero]
  intro stream hmem
  rw [kind_of_listed (h stream hmem), beq_iff_eq]
  split_ifs
  all_goals decide

/-- Every role is JPEG or is not. -/
theorem length_eq_roleCounts (roles : List StreamRole) :
    roles.length = roles.countP (· != .jpeg) + roles.countP (· == .jpeg) := by
  rw [List.length_eq_countP_add_countP (· != StreamRole.jpeg)]
  congr 1
  refine List.countP_congr fun role _ => ?_
  rw [decide_eq_true_iff, Bool.not_eq_true, bne_eq_false_iff_eq, beq_iff_eq]

theorem length_eq_counts (h : ∀ stream ∈ streams, Listed cameraId stream) :
    streams.length = count .processed streams + count .jpeg streams := by
  rw [count_processed h, count_jpeg h, ← length_eq_roleCounts, List.length_map]

/-- The tests of the code. -/
theorem validateConfiguration_tests (cameraId : ℤ) (pointers : List (Option Stream)) :
    validateConfiguration cameraId (some ⟨some pointers⟩) = 0 ↔
      (1 ≤ pointers.length ∧ pointers.length ≤ 3 ∧ (cameraId = 0 ∨ cameraId = 1)) ∧
      ∃ processed jpeg, rolesLoop cameraId pointers (fun _ => false) 0 0 =
        some (processed, jpeg) ∧ 1 ≤ processed ∧ processed ≤ 2 ∧ jpeg ≤ 1 := by
  show (if _ then -einval else _) = 0 ↔ _
  by_cases hargs : pointers.length < 1 ∨ pointers.length > 3 ∨ (cameraId ≠ 0 ∧ cameraId ≠ 1)
  · rw [if_pos hargs]
    refine iff_of_false (by decide) fun h => ?_
    omega
  · rw [if_neg hargs]
    cases rolesLoop cameraId pointers (fun _ => false) 0 0 with
    | none =>
      refine iff_of_false (by decide) ?_
      rintro ⟨-, processed, jpeg, hloop, -⟩
      exact Option.some_ne_none _ hloop.symm
    | some counts =>
      obtain ⟨processed, jpeg⟩ := counts
      dsimp only
      split_ifs with hcounts
      · refine iff_of_false (by decide) ?_
        rintro ⟨-, processed', jpeg', hloop, hbounds⟩
        obtain ⟨rfl, rfl⟩ := Prod.mk.inj (Option.some.inj hloop)
        omega
      · exact iff_of_true rfl ⟨by omega, processed, jpeg, rfl, by omega⟩

/-- What the loop finds in a list of streams that the tables promise. -/
theorem rolesLoop_of_fits (hcamera : cameraId = 0 ∨ cameraId = 1)
    (h : ∀ stream ∈ streams, Fits cameraId stream) (processed jpeg : ℕ) :
    rolesLoop cameraId (streams.map some) (fun _ => false) 0 0 = some (processed, jpeg) ↔
      (streams.map Stream.role).Nodup ∧ processed = count .processed streams ∧
        jpeg = count .jpeg streams := by
  have hlisted (stream : Stream) (hmem : stream ∈ streams) := (h stream hmem).listed
  rw [rolesLoop_eq_some_iff, map_classify hcamera h, count_processed hlisted, count_jpeg hlisted,
    Nat.zero_add, Nat.zero_add]
  refine and_iff_right fun role hrole => ⟨?_, rfl⟩
  obtain ⟨stream, -, rfl⟩ := List.mem_map.mp hrole
  exact role_ne_invalid stream

/-- Streams that all have a role are there and fit. -/
theorem exists_streams (hcamera : cameraId = 0 ∨ cameraId = 1) {pointers : List (Option Stream)}
    (h : ∀ role ∈ pointers.map (classify cameraId), role ≠ .invalid) :
    ∃ streams : List Stream, pointers = streams.map some ∧
      ∀ stream ∈ streams, Fits cameraId stream := by
  induction pointers with
  | nil => exact ⟨[], rfl, fun stream hmem => absurd hmem List.not_mem_nil⟩
  | cons pointer pointers ih =>
    rw [List.map_cons, List.forall_mem_cons] at h
    obtain ⟨streams, rfl, hfits⟩ := ih h.2
    cases pointer with
    | none => exact absurd rfl h.1
    | some stream =>
      refine ⟨stream :: streams, rfl, ?_⟩
      rw [List.forall_mem_cons]
      exact ⟨fits_of_classify hcamera h.1, hfits⟩

end

/-- **Lists that are refused** although the tables promise them: a still picture alone,
    and two previews. -/
theorem validateConfiguration_refuses :
    (Advertised 0 [⟨.output, 1920, 1080, halPixelFormatBlob, 0⟩] ∧
      validateConfiguration 0
        (some ⟨some [some ⟨.output, 1920, 1080, halPixelFormatBlob, 0⟩]⟩) = -einval) ∧
    (Advertised 0 [⟨.output, 1920, 1080, halPixelFormatImplementationDefined, usageHwTexture⟩,
        ⟨.output, 1280, 720, halPixelFormatImplementationDefined, usageHwTexture⟩] ∧
      validateConfiguration 0
        (some ⟨some [
          some ⟨.output, 1920, 1080, halPixelFormatImplementationDefined, usageHwTexture⟩,
          some ⟨.output, 1280, 720, halPixelFormatImplementationDefined, usageHwTexture⟩]⟩) =
        -einval) := by
  have hcounts (streams : List Stream) (hraw : count .raw streams ≤ 0)
      (hprocessed : count .processed streams ≤ 2) (hjpeg : count .jpeg streams ≤ 1)
      (kind : StreamKind) : count kind streams ≤ maxOutputStreams kind := by
    cases kind with
    | raw => exact hraw
    | processed => exact hprocessed
    | jpeg => exact hjpeg
  refine ⟨⟨?_, by decide⟩, ?_, by decide⟩
  · refine ⟨List.cons_ne_nil _ _, by decide, ?_, ?_,
      hcounts _ (by decide) (by decide) (by decide)⟩
    · unfold Listed
      decide
    · unfold Stream.UsageGiven
      decide
  · refine ⟨List.cons_ne_nil _ _, by decide, ?_, ?_,
      hcounts _ (by decide) (by decide) (by decide)⟩
    · unfold Listed
      decide
    · unfold Stream.UsageGiven
      decide

/-- **The validation** accepts the lists that the tables promise, if a processed stream is
    among the streams and no two have one role. -/
theorem validateConfiguration_eq_zero_iff (cameraId : ℤ) (pointers : List (Option Stream)) :
    validateConfiguration cameraId (some ⟨some pointers⟩) = 0 ↔
      (cameraId = 0 ∨ cameraId = 1) ∧ ∃ streams : List Stream, pointers = streams.map some ∧
        Advertised cameraId streams ∧ 1 ≤ count .processed streams ∧
        (streams.map Stream.role).Nodup := by
  rw [validateConfiguration_tests]
  constructor
  · rintro ⟨⟨hone, -, hcamera⟩, processed, jpeg, hloop, hsome, htwo, hjpeg⟩
    have hvalid := ((rolesLoop_eq_some_iff _ _ _ _ _ _ _).mp hloop).1
    obtain ⟨streams, rfl, hfits⟩ := exists_streams hcamera fun role hrole => (hvalid role hrole).1
    obtain ⟨hnodup, rfl, rfl⟩ := (rolesLoop_of_fits hcamera hfits _ _).mp hloop
    refine ⟨hcamera, streams, rfl, ⟨?_, fun stream hmem => (hfits stream hmem).output,
      fun stream hmem => (hfits stream hmem).listed,
      fun stream hmem => (hfits stream hmem).usageGiven, fun kind => ?_⟩, hsome, hnodup⟩
    · rintro rfl
      exact absurd hone (by decide)
    · cases kind with
      | raw => exact Nat.le_of_eq (count_raw fun stream hmem => (hfits stream hmem).listed)
      | processed => exact htwo
      | jpeg => exact hjpeg
  · rintro ⟨hcamera, streams, rfl, hadvertised, hsome, hnodup⟩
    have htwo := hadvertised.count_le .processed
    have hjpeg := hadvertised.count_le .jpeg
    have hlength := length_eq_counts hadvertised.listed
    rw [List.length_map]
    dsimp only [maxOutputStreams] at htwo hjpeg
    refine ⟨⟨by omega, by omega, hcamera⟩, _, _, (rolesLoop_of_fits hcamera ?_ _ _).mpr
      ⟨hnodup, rfl, rfl⟩, hsome, htwo, hjpeg⟩
    exact fun stream hmem => ⟨hadvertised.output stream hmem, hadvertised.listed stream hmem,
      hadvertised.usageGiven stream hmem⟩

end Pro5Android.Native3
