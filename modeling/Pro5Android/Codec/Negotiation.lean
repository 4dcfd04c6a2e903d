import Mathlib.Data.Int.Notation
import Mathlib.Data.Nat.Notation
import Mathlib.Data.List.Basic
import Mathlib.Order.Basic
import Mathlib.Tactic.SplitIfs

/-!
# The negotiation of the H.264 encoder controls

`Codec_OSAL_NegotiateH264Controls` of
`0002-videocodec-negotiate-MFC-AVC-controls.patch` asks the driver for each control
that is to be set, with one query for each id, and moves the ones that can be set to
the front of the array.

The ids `V4L2_CID_*` are in headers that are not in the repository; what they are is a
parameter. What the driver answers is a function of the id. The values are `s32`, and
their differences are taken as `long long`, so that they are integers here.

Results:
* `consult_cases`: what the cache tells.
* `Negotiation.Inv.step`, `negotiateLoop_spec`: what one control does, and the loop.
* `negotiateH264Controls_spec`: when the negotiation succeeds, and what it leaves.
-/

namespace Pro5Android.Codec

/-! ## Data -/

/-- The ids of the controls that a driver may lack (patch lines 37–77). -/
inductive OptionalCid
  | mpegVideoGopClosure
  | mpegVideoH264IPeriod
  | mpegVideoVbvSize
  | mpegVideoH264VuiSarEnable
  | mpegVideoH264VuiSarIdc
  | mpegVideoH264VuiExtSarWidth
  | mpegVideoH264VuiExtSarHeight
  | mpegVideoH264HierarchicalCoding
  | mpegVideoH264HierarchicalCodingType
  | mpegVideoH264HierarchicalCodingLayer
  | mpegVideoH264HierarchicalCodingLayerQp
  | mpegVideoH264HierarchicalCodingLayerBit0
  | mpegVideoH264HierarchicalCodingLayerBit1
  | mpegVideoH264HierarchicalCodingLayerBit2
  | mpegVideoH264HierarchicalCodingLayerBit3
  | mpegVideoH264HierarchicalCodingLayerBit4
  | mpegVideoH264HierarchicalCodingLayerBit5
  | mpegVideoH264HierarchicalCodingLayerBit6
  | mpegVideoH264SeiFramePacking
  | mpegVideoH264SeiFpCurrentFrame0
  | mpegVideoH264SeiFpArrangementType
  | mpegVideoH264Fmo
  | mpegVideoH264FmoMapType
  | mpegVideoH264FmoSliceGroup
  | mpegVideoH264FmoRunLength
  | mpegVideoH264FmoChangeDirection
  | mpegVideoH264FmoChangeRate
  | mpegVideoH264Aso
  | mpegVideoH264AsoSliceOrder
  | mpegMfcH264VuiRestrictionEnable
  | mpegMfcH264NumOfLtr
  | mpegMfcConfigQpEnable
  | mpegMfcConfigQp
  | mpegVideoTemporalShorttermMaxLayer
  | mpegVideoRoiEnable
  | mpegVideoH264MinQpP
  | mpegVideoH264MaxQpP
  | mpegVideoH264MinQpB
  | mpegVideoH264MaxQpB
  | mpegVideoRcPvcEnable
  | mpegVideoDropControl

/-- The cases of the `switch`. -/
def optionalCids : List OptionalCid :=
  [.mpegVideoGopClosure, .mpegVideoH264IPeriod, .mpegVideoVbvSize, .mpegVideoH264VuiSarEnable,
    .mpegVideoH264VuiSarIdc, .mpegVideoH264VuiExtSarWidth, .mpegVideoH264VuiExtSarHeight,
    .mpegVideoH264HierarchicalCoding, .mpegVideoH264HierarchicalCodingType,
    .mpegVideoH264HierarchicalCodingLayer, .mpegVideoH264HierarchicalCodingLayerQp,
    .mpegVideoH264HierarchicalCodingLayerBit0, .mpegVideoH264HierarchicalCodingLayerBit1,
    .mpegVideoH264HierarchicalCodingLayerBit2, .mpegVideoH264HierarchicalCodingLayerBit3,
    .mpegVideoH264HierarchicalCodingLayerBit4, .mpegVideoH264HierarchicalCodingLayerBit5,
    .mpegVideoH264HierarchicalCodingLayerBit6, .mpegVideoH264SeiFramePacking,
    .mpegVideoH264SeiFpCurrentFrame0, .mpegVideoH264SeiFpArrangementType, .mpegVideoH264Fmo,
    .mpegVideoH264FmoMapType, .mpegVideoH264FmoSliceGroup, .mpegVideoH264FmoRunLength,
    .mpegVideoH264FmoChangeDirection, .mpegVideoH264FmoChangeRate, .mpegVideoH264Aso,
    .mpegVideoH264AsoSliceOrder, .mpegMfcH264VuiRestrictionEnable, .mpegMfcH264NumOfLtr,
    .mpegMfcConfigQpEnable, .mpegMfcConfigQp, .mpegVideoTemporalShorttermMaxLayer,
    .mpegVideoRoiEnable, .mpegVideoH264MinQpP, .mpegVideoH264MaxQpP, .mpegVideoH264MinQpB,
    .mpegVideoH264MaxQpB, .mpegVideoRcPvcEnable, .mpegVideoDropControl]

/-- `unsigned int id`. -/
abbrev ControlId := BitVec 32

/-- `struct v4l2_ext_control`. -/
structure Control where
  id : ControlId
  value : ℤ
  deriving DecidableEq

/-- `struct v4l2_queryctrl`, what is read of it. -/
structure QueryCtrl where
  flags : BitVec 32
  minimum : ℤ
  maximum : ℤ
  step : ℤ

/-- `queryResult`, with `queryErrno` where it is not 0 and `query` where it is. -/
inductive Answer
  | failed (errno : ℤ)
  | answered (query : QueryCtrl)

/-- `exynos_v4l2_queryctrl` on the device. -/
abbrev Driver := ControlId → Answer

/-- `CodecOSALControlCapability`. -/
structure ControlCapability where
  id : ControlId
  answer : Answer

/-- `struct v4l2_ext_controls`, with an array that has room for `count` controls. -/
structure ExtControls where
  size : ℕ
  controls : Vector Control size
  count : ℕ
  count_le : count ≤ size

/-- The controls that the array stands for. -/
def ExtControls.toList (e : ExtControls) : List Control := e.controls.toList.take e.count

/-- `MAX_CTRL_NUM`. -/
def maxCtrlNum : ℕ := 110

def einval : ℤ := 22

/-- `V4L2_CTRL_FLAG_DISABLED | V4L2_CTRL_FLAG_INACTIVE | V4L2_CTRL_FLAG_READ_ONLY`. -/
def notWritable : BitVec 32 := 0x0001#32 ||| 0x0010#32 ||| 0x0004#32

/-! ## The code -/

/-- `Codec_OSAL_IsOptionalH264Control` (lines 34–82). -/
def isOptionalH264Control (cid : OptionalCid → ControlId) (id : ControlId) : Bool :=
  (optionalCids.map cid).contains id

/-- The opposite of the test of lines 154–160. -/
def Answer.writable : Answer → Bool
  | failed _ => false
  | answered query => query.flags &&& notWritable == 0#32

/-- A new answer with which the negotiation fails (lines 125–151). -/
def Answer.refused (optional : Bool) : Answer → Bool
  | failed errno => !(errno == einval && optional)
  | answered query => !(answered query).writable && !optional

/-- The test of lines 162–166. -/
def QueryCtrl.outside (query : QueryCtrl) (value : ℤ) : Bool :=
  decide (value < query.minimum) || decide (value > query.maximum) ||
    (decide (query.step > 1) && (value - query.minimum).tmod query.step != 0)

/-- The test of the value, for an answer that is writable. -/
def Answer.outside (value : ℤ) : Answer → Bool
  | failed _ => false
  | answered query => query.outside value

/-- The capability of an id, from the cache or from the driver (lines 107–152). -/
def consult (cid : OptionalCid → ControlId) (driver : Driver) (id : ControlId)
    (capability : List ControlCapability) : Option (Answer × List ControlCapability) :=
  match capability.find? (fun current => current.id == id) with
  | some current => some (current.answer, capability)
  | none =>
    if capability.length ≥ maxCtrlNum then none
    else if (driver id).refused (isOptionalH264Control cid id) then none
    else some (driver id, capability ++ [⟨id, driver id⟩])

/-- The variables of the loop at `readIndex`. -/
structure Negotiation (size readIndex : ℕ) where
  controls : Vector Control size
  capability : List ControlCapability
  writeIndex : ℕ
  writeIndex_le : writeIndex ≤ readIndex

/-- The body of the loop (lines 100–177); `none` is `return -1`. -/
def Negotiation.step (cid : OptionalCid → ControlId) (driver : Driver) {size readIndex : ℕ}
    (n : Negotiation size readIndex) (h : readIndex < size) :
    Option (Negotiation size (readIndex + 1)) :=
  let control := n.controls[readIndex]
  match consult cid driver control.id n.capability with
  | none => none
  | some (current, capability) =>
    if !current.writable then
      some ⟨n.controls, capability, n.writeIndex, Nat.le_succ_of_le n.writeIndex_le⟩
    else if current.outside control.value then none
    else
      have hwrite : n.writeIndex < size := Nat.lt_of_le_of_lt n.writeIndex_le h
      some
        { controls :=
            if n.writeIndex != readIndex then n.controls.set n.writeIndex control hwrite
            else n.controls
          capability := capability
          writeIndex := n.writeIndex + 1
          writeIndex_le := Nat.succ_le_succ n.writeIndex_le }

/-- The loop (lines 99–178) with what follows it, where `remaining` candidates are left. -/
def negotiateLoop (cid : OptionalCid → ControlId) (driver : Driver) (e : ExtControls) :
    (remaining : ℕ) → {readIndex : ℕ} → readIndex + remaining ≤ e.size →
      Negotiation e.size readIndex → ℤ × ExtControls
  | 0, _, h, n => (0, ⟨e.size, n.controls, n.writeIndex, Nat.le_trans n.writeIndex_le h⟩)
  | remaining + 1, readIndex, h, n =>
    match n.step cid driver (by omega) with
    | none => (-1, ⟨e.size, n.controls, e.count, e.count_le⟩)
    | some n' => negotiateLoop cid driver e remaining (by omega) n'

/-- The loop from the first control. -/
def negotiateControls (cid : OptionalCid → ControlId) (driver : Driver) (e : ExtControls) :
    ℤ × ExtControls :=
  negotiateLoop cid driver e e.count (by rw [Nat.zero_add]; exact e.count_le)
    (⟨e.controls, [], 0, Nat.le_refl 0⟩ : Negotiation e.size 0)

/-- `Codec_OSAL_NegotiateH264Controls` (lines 84–187); `none` where `ext_ctrls` or its
    array is `NULL`. -/
def negotiateH264Controls (cid : OptionalCid → ControlId) (driver : Driver) :
    Option ExtControls → ℤ × Option ExtControls
  | none => (-1, none)
  | some e => ((negotiateControls cid driver e).1, some (negotiateControls cid driver e).2)

/-! ## Specification -/

/-- The driver knows the control and it can be set. -/
def Answer.Writable (answer : Answer) : Prop :=
  ∃ query, answer = .answered query ∧ query.flags &&& notWritable = 0#32

/-- A value that is within the range and on its step. -/
structure QueryCtrl.Admits (query : QueryCtrl) (value : ℤ) : Prop where
  minimum_le : query.minimum ≤ value
  le_maximum : value ≤ query.maximum
  onStep : 1 < query.step → query.step ∣ value - query.minimum

/-- A control with which the negotiation goes on. -/
structure Negotiable (cid : OptionalCid → ControlId) (driver : Driver) (control : Control) :
    Prop where
  required : isOptionalH264Control cid control.id = false → (driver control.id).Writable
  failing : isOptionalH264Control cid control.id = true →
    ∀ errno, driver control.id = .failed errno → errno = einval
  admitted : ∀ query, driver control.id = .answered query →
    query.flags &&& notWritable = 0#32 → query.Admits control.value

/-! ## One control -/

section

variable {cid : OptionalCid → ControlId} {driver : Driver}

theorem writable_iff (answer : Answer) : answer.writable = true ↔ answer.Writable := by
  constructor
  · intro h
    cases answer with
    | failed errno => exact absurd h Bool.false_ne_true
    | answered query => exact ⟨query, rfl, beq_iff_eq.mp h⟩
  · rintro ⟨query, rfl, hflags⟩
    exact beq_iff_eq.mpr hflags

theorem outside_eq_false_iff (query : QueryCtrl) (value : ℤ) :
    query.outside value = false ↔ query.Admits value := by
  unfold QueryCtrl.outside
  simp only [Bool.or_eq_false_iff, Bool.and_eq_false_iff, decide_eq_false_iff_not,
    bne_eq_false_iff_eq, Int.not_lt, gt_iff_lt, ← Int.dvd_iff_tmod_eq_zero]
  constructor
  · rintro ⟨⟨hmin, hmax⟩, hstep⟩
    exact ⟨hmin, hmax, fun h => hstep.resolve_left (Int.not_le.mpr h)⟩
  · rintro ⟨hmin, hmax, hstep⟩
    refine ⟨⟨hmin, hmax⟩, ?_⟩
    by_cases h : 1 < query.step
    · exact .inr (hstep h)
    · exact .inl (Int.not_lt.mp h)

/-- The tests of the code. -/
theorem negotiable_iff (control : Control) :
    Negotiable cid driver control ↔
      (driver control.id).refused (isOptionalH264Control cid control.id) = false ∧
      ((driver control.id).writable = true →
        (driver control.id).outside control.value = false) := by
  constructor
  · rintro ⟨hrequired, hfailing, hadmitted⟩
    cases hanswer : driver control.id with
    | failed errno =>
      refine ⟨?_, fun h => absurd h Bool.false_ne_true⟩
      cases hoptional : isOptionalH264Control cid control.id with
      | false =>
        obtain ⟨query, hquery, -⟩ := hrequired hoptional
        rw [hanswer] at hquery
        cases hquery
      | true =>
        obtain rfl := hfailing hoptional errno hanswer
        rfl
    | answered query =>
      refine ⟨?_, fun hwritable => ?_⟩
      · cases hoptional : isOptionalH264Control cid control.id with
        | false =>
          have hwritable := (writable_iff _).mpr (hrequired hoptional)
          rw [hanswer] at hwritable
          show (!(Answer.answered query).writable && !false) = false
          rw [hwritable]
          rfl
        | true => exact Bool.and_false _
      · obtain ⟨_, hsame, hflags⟩ := (writable_iff _).mp hwritable
        obtain rfl := Answer.answered.inj hsame
        exact (outside_eq_false_iff query _).mpr (hadmitted query hanswer hflags)
  · rintro ⟨hrefused, houtside⟩
    refine ⟨fun hoptional => ?_, fun hoptional errno hanswer => ?_, fun query hanswer hflags => ?_⟩
    · rw [hoptional] at hrefused
      cases hanswer : driver control.id with
      | failed errno =>
        rw [hanswer] at hrefused
        simp [Answer.refused] at hrefused
      | answered query =>
        rw [hanswer] at hrefused
        have hwritable : (!(Answer.answered query).writable && !false) = false := hrefused
        rw [Bool.not_false, Bool.and_true, Bool.not_eq_false'] at hwritable
        exact (writable_iff _).mp hwritable
    · rw [hanswer, hoptional] at hrefused
      simpa [Answer.refused] using hrefused
    · rw [hanswer] at houtside
      exact (outside_eq_false_iff query _).mp
        (houtside ((writable_iff _).mpr ⟨query, rfl, hflags⟩))

/-- The cache holds answers with which the negotiation has gone on. -/
def Cached (cid : OptionalCid → ControlId) (driver : Driver)
    (capability : List ControlCapability) : Prop :=
  ∀ current ∈ capability, current.answer = driver current.id ∧
    (driver current.id).refused (isOptionalH264Control cid current.id) = false

/-- While the cache has room, `consult` tells what the driver answers, unless that ends
    the negotiation. -/
theorem consult_cases (id : ControlId) {capability : List ControlCapability}
    (hcached : Cached cid driver capability) (hroom : capability.length < maxCtrlNum) :
    ((driver id).refused (isOptionalH264Control cid id) = true ∧
      consult cid driver id capability = none) ∨
    ((driver id).refused (isOptionalH264Control cid id) = false ∧
      ∃ capability', consult cid driver id capability = some (driver id, capability') ∧
        Cached cid driver capability' ∧ capability'.length ≤ capability.length + 1) := by
  unfold consult
  cases hfind : capability.find? (fun current => current.id == id) with
  | some current =>
    have hid : current.id = id := by
      have hsome := List.find?_some hfind
      exact beq_iff_eq.mp hsome
    obtain ⟨hanswer, hgoes⟩ := hcached current (List.mem_of_find?_eq_some hfind)
    rw [hid] at hanswer hgoes
    refine .inr ⟨hgoes, capability, ?_, hcached, Nat.le_succ _⟩
    dsimp only
    rw [hanswer]
  | none =>
    dsimp only
    rw [if_neg (Nat.not_le.mpr hroom)]
    cases hrefused : (driver id).refused (isOptionalH264Control cid id) with
    | true => exact .inl ⟨rfl, rfl⟩
    | false =>
      refine .inr ⟨rfl, _, rfl, fun current hmem => ?_, ?_⟩
      · obtain hold | hnew := List.mem_append.mp hmem
        · exact hcached current hold
        · obtain rfl := List.mem_singleton.mp hnew
          exact ⟨rfl, hrefused⟩
      · rw [List.length_append]
        exact Nat.le_refl _

end

/-! ## Moving a control to the front -/

section

variable {α : Type*} {size : ℕ}

theorem take_succ_eq (xs : Vector α size) {i : ℕ} (h : i < size) :
    xs.toList.take (i + 1) = xs.toList.take i ++ [xs[i]] := by
  rw [List.take_succ_eq_append_getElem (by rw [Vector.length_toList]; exact h)]
  rfl

theorem take_succ_set (xs : Vector α size) (x : α) {i : ℕ} (h : i < size) :
    (xs.set i x h).toList.take (i + 1) = xs.toList.take i ++ [x] := by
  rw [take_succ_eq _ h, Vector.getElem_set_self, Vector.toList_set, List.take_set_of_le (Nat.le_refl i)]

theorem drop_succ_set (xs : Vector α size) (x : α) {i j : ℕ} (hi : i < size) (hij : i ≤ j) :
    (xs.set i x hi).toList.drop (j + 1) = xs.toList.drop (j + 1) := by
  rw [Vector.toList_set, List.drop_set_of_lt (Nat.lt_succ_of_le hij)]

end

/-! ## The loop -/

/-- What holds at `readIndex`: the controls before it that can be set are at the front,
    the ones from it on are untouched. -/
structure Negotiation.Inv (cid : OptionalCid → ControlId) (driver : Driver) {size readIndex : ℕ}
    (original : Vector Control size) (n : Negotiation size readIndex) : Prop where
  rest : n.controls.toList.drop readIndex = original.toList.drop readIndex
  kept : n.controls.toList.take n.writeIndex =
    (original.toList.take readIndex).filter fun control => (driver control.id).writable
  cached : Cached cid driver n.capability
  room : n.capability.length ≤ readIndex
  negotiable : ∀ control ∈ original.toList.take readIndex, Negotiable cid driver control

section

variable {cid : OptionalCid → ControlId} {driver : Driver} {size readIndex : ℕ}
  {original : Vector Control size} {n : Negotiation size readIndex}

/-- The control at `readIndex` has not been overwritten. -/
theorem Negotiation.Inv.getElem_eq (hinv : n.Inv cid driver original) (h : readIndex < size) :
    n.controls[readIndex] = original[readIndex] := by
  have hhead := congrArg List.head? hinv.rest
  rw [List.head?_drop, List.head?_drop, Vector.getElem?_toList, Vector.getElem?_toList,
    Vector.getElem?_eq_getElem h, Vector.getElem?_eq_getElem h] at hhead
  exact Option.some.inj hhead

theorem Negotiation.Inv.drop_succ (hinv : n.Inv cid driver original) :
    n.controls.toList.drop (readIndex + 1) = original.toList.drop (readIndex + 1) := by
  rw [← List.drop_drop, hinv.rest, List.drop_drop]

/-- **The step lemma**: the loop ends at a control that is not negotiable, and goes on
    with its invariant otherwise. -/
theorem Negotiation.Inv.step (hinv : n.Inv cid driver original) (h : readIndex < size)
    (hroom : readIndex < maxCtrlNum) :
    (¬ Negotiable cid driver original[readIndex] ∧ n.step cid driver h = none) ∨
    (Negotiable cid driver original[readIndex] ∧
      ∃ n', n.step cid driver h = some n' ∧ n'.Inv cid driver original) := by
  have hread := hinv.getElem_eq h
  unfold Negotiation.step
  dsimp only
  rw [hread, negotiable_iff]
  obtain ⟨hrefused, hconsult⟩ | ⟨hgoes, capability', hconsult, hcached, hlength⟩ :=
    consult_cases original[readIndex].id hinv.cached (Nat.lt_of_le_of_lt hinv.room hroom)
  · rw [hconsult, hrefused]
    exact .inl ⟨fun hboth => Bool.false_ne_true hboth.1.symm, rfl⟩
  rw [hconsult]
  dsimp only
  have hroom' : capability'.length ≤ readIndex + 1 :=
    Nat.le_trans hlength (Nat.succ_le_succ hinv.room)
  have hnegotiable (hthis : Negotiable cid driver original[readIndex]) :
      ∀ control ∈ original.toList.take (readIndex + 1), Negotiable cid driver control := by
    intro control hmem
    rw [take_succ_eq original h, List.mem_append, List.mem_singleton] at hmem
    obtain hold | rfl := hmem
    · exact hinv.negotiable control hold
    · exact hthis
  cases hwritable : (driver original[readIndex].id).writable with
  | false =>
    have hthis : Negotiable cid driver original[readIndex] := (negotiable_iff _).mpr
      ⟨hgoes, fun h => absurd (hwritable.symm.trans h) Bool.false_ne_true⟩
    refine .inr ⟨⟨hgoes, fun h => absurd h Bool.false_ne_true⟩, _, rfl, ?_⟩
    refine ⟨hinv.drop_succ, ?_, hcached, hroom', hnegotiable hthis⟩
    dsimp only
    rw [hinv.kept, take_succ_eq original h, List.filter_append,
      List.filter_cons_of_neg (by rw [hwritable]; exact Bool.false_ne_true), List.filter_nil,
      List.append_nil]
  | true =>
    cases houtside : (driver original[readIndex].id).outside original[readIndex].value with
    | true => exact .inl ⟨fun hboth => Bool.false_ne_true (hboth.2 rfl).symm, rfl⟩
    | false =>
      have hthis : Negotiable cid driver original[readIndex] := (negotiable_iff _).mpr
        ⟨hgoes, fun _ => houtside⟩
      have hwrite : n.writeIndex < size := Nat.lt_of_le_of_lt n.writeIndex_le h
      -- the control is in place already where nothing has been omitted yet
      have hmoved : (if n.writeIndex != readIndex then
          n.controls.set n.writeIndex original[readIndex] hwrite else n.controls) =
          n.controls.set n.writeIndex original[readIndex] hwrite := by
        split_ifs with hmove
        · rfl
        · have hsame : n.writeIndex = readIndex := by simpa using hmove
          rw [← hread]
          simp only [hsame, Vector.set_getElem_self]
      refine .inr ⟨⟨hgoes, fun _ => rfl⟩, _, rfl, ?_⟩
      refine ⟨?_, ?_, hcached, hroom', hnegotiable hthis⟩
      · dsimp only
        rw [hmoved, drop_succ_set _ _ hwrite n.writeIndex_le]
        exact hinv.drop_succ
      · dsimp only
        rw [hmoved, take_succ_set, hinv.kept, take_succ_eq original h, List.filter_append,
          List.filter_cons_of_pos (by rw [hwritable]), List.filter_nil]

/-- **The run**: the loop succeeds if the controls that are left are negotiable, and
    then the ones that can be set are at the front. -/
theorem negotiateLoop_spec (e : ExtControls) (remaining : ℕ) {readIndex : ℕ}
    (h : readIndex + remaining ≤ e.size) (hroom : readIndex + remaining ≤ maxCtrlNum)
    {n : Negotiation e.size readIndex} (hinv : n.Inv cid driver e.controls) :
    let result := negotiateLoop cid driver e remaining h n
    let candidates := e.controls.toList.take (readIndex + remaining)
    (result.1 = 0 ↔ ∀ control ∈ candidates, Negotiable cid driver control) ∧
    (result.1 = 0 →
      result.2.toList = candidates.filter fun control => (driver control.id).writable) ∧
    (result.1 = 0 → result.2.toList.length = result.2.count) := by
  induction remaining generalizing readIndex with
  | zero =>
    refine ⟨iff_of_true rfl hinv.negotiable, fun _ => hinv.kept, fun _ => ?_⟩
    show (n.controls.toList.take n.writeIndex).length = n.writeIndex
    rw [List.length_take, Vector.length_toList]
    exact Nat.min_eq_left (Nat.le_trans n.writeIndex_le h)
  | succ remaining ih =>
    have hread : readIndex < e.size := by omega
    dsimp only
    unfold negotiateLoop
    obtain ⟨hnot, hstep⟩ | ⟨-, n', hstep, hinv'⟩ :=
      hinv.step hread (by omega)
    · rw [hstep]
      dsimp only
      refine ⟨iff_of_false (by decide) fun hall => hnot (hall _ ?_), ?_, ?_⟩
      · rw [List.mem_take_iff_getElem]
        refine ⟨readIndex, ?_, rfl⟩
        rw [Vector.length_toList]
        omega
      · exact fun hzero => absurd hzero (by decide)
      · exact fun hzero => absurd hzero (by decide)
    · rw [hstep, ← Nat.add_assoc, Nat.add_right_comm]
      exact ih (by omega) (by omega) hinv'

end

/-! ## The negotiation -/

/-- **The negotiation succeeds** if every control is negotiable; then the list is the one
    of the controls that can be set, in their order, and all the others are optional. -/
theorem negotiateH264Controls_spec (cid : OptionalCid → ControlId) (driver : Driver)
    (e : ExtControls) (hcount : e.count ≤ maxCtrlNum) :
    ((negotiateH264Controls cid driver (some e)).1 = 0 ↔
      ∀ control ∈ e.toList, Negotiable cid driver control) ∧
    ((negotiateH264Controls cid driver (some e)).1 = 0 →
      ∃ e', (negotiateH264Controls cid driver (some e)).2 = some e' ∧
        e'.toList = e.toList.filter (fun control => (driver control.id).writable) ∧
        e'.count = e'.toList.length ∧
        ∀ control ∈ e.toList, control ∉ e'.toList →
          isOptionalH264Control cid control.id = true) := by
  have hstart : (⟨e.controls, [], 0, Nat.le_refl 0⟩ : Negotiation e.size 0).Inv cid driver
      e.controls := by
    refine ⟨rfl, rfl, fun current hmem => ?_, Nat.le_refl 0, fun control hmem => ?_⟩
    · exact absurd hmem List.not_mem_nil
    · exact absurd hmem List.not_mem_nil
  obtain ⟨hiff, hkept, hlength⟩ := negotiateLoop_spec e e.count
    (by rw [Nat.zero_add]; exact e.count_le) (by rw [Nat.zero_add]; exact hcount) hstart
  have hcandidates : e.controls.toList.take (0 + e.count) = e.toList := by
    rw [Nat.zero_add]
    rfl
  rw [hcandidates] at hiff hkept
  refine ⟨hiff, fun hzero => ⟨_, rfl, hkept hzero, (hlength hzero).symm, ?_⟩⟩
  intro control hmem hnot
  -- a control that is not optional can be set, so it is kept
  rw [← Bool.not_eq_false]
  intro hrequired
  apply hnot
  rw [show (negotiateControls cid driver e).2.toList = _ from hkept hzero, List.mem_filter]
  exact ⟨hmem, (writable_iff _).mpr ((hiff.mp hzero control hmem).required hrequired)⟩

/-- A repeated control that can be set, after an optional one that the driver lacks. -/
theorem negotiateH264Controls_spec_omits :
    let cid : OptionalCid → ControlId := fun _ => 1#32
    let driver : Driver := fun id =>
      if id = 1#32 then .failed einval else .answered ⟨0#32, 0, 10, 2⟩
    ∃ e', (negotiateH264Controls cid driver
        (some ⟨3, #v[⟨1#32, 5⟩, ⟨2#32, 4⟩, ⟨2#32, 6⟩], 3, Nat.le_refl 3⟩)).2 = some e' ∧
      e'.toList = [⟨2#32, 4⟩, ⟨2#32, 6⟩] ∧ e'.count = 2 := by
  dsimp only
  obtain ⟨e', he', hlist, hcount, -⟩ := (negotiateH264Controls_spec (fun _ => 1#32)
    (fun id => if id = 1#32 then .failed einval else .answered ⟨0#32, 0, 10, 2⟩)
    ⟨3, #v[⟨1#32, 5⟩, ⟨2#32, 4⟩, ⟨2#32, 6⟩], 3, Nat.le_refl 3⟩ (by decide)).2 (by decide)
  refine ⟨e', he', hlist, ?_⟩
  rw [hcount, hlist]
  decide

end Pro5Android.Codec
