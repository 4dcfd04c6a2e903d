import Pro5Android.Python.Host
import Pro5Android.Stock.SourcePath

/-!
# Extraction of the stock files

`main` and `extract_file` of `tools/extract-stock-files.py` (lines 52–119). The image is
what `volume.inode_at` returns or raises for a path, and what the inodes give; the digest
is a parameter. The parts of an entry's path are plain names (`source_path` has refused
`..`), so that the paths below the output are lists of names. Sizes and what is printed are
left out.

Results:
* `comp_of_sourcePath`: no part of an entry's path is `.` or `..`.
-/

namespace Pro5Android.Stock

open Python Lib HostDisk

/-- `os.fsencode`. -/
def fsencode (s : Str) : Bytes := s.flatMap String.utf8EncodeChar

/-- What `volume.inode_at` returns. -/
inductive Inode
  /-- a `File`: `open()` raises (`none`), or the results of `read` and whether the one
      after them raises -/
  | file (source : Option (List Bytes × Bool)) (mode : ℕ)
  /-- a `SymbolicLink`, whose `readlink()` may raise -/
  | symbolicLink (target : Option Bytes)
  /-- any other inode -/
  | other

/-- What ends the program. -/
inductive Failure
  /-- `Refusing unsafe output root: {output}` -/
  | unsafeOutput
  /-- the `ValueError` of `source_path` -/
  | sourcePath (e : PathError)
  /-- `The proprietary list contains duplicate source paths.` -/
  | duplicates
  /-- an exception of the image: `inode_at`, `open`, `read` or `readlink` -/
  | image
  /-- an `OSError` of the host -/
  | host (e : FileError)
  /-- `Unsupported inode type for {relative}` -/
  | unsupportedInode (relative : Str)

/-- One operation on the host. -/
def onHost (f : HostDisk → Except FileError HostDisk) : HostM Failure Unit := fun s =>
  match f s with
  | .ok s => .ok () s
  | .error e => .error (.host e) s

/-- `path.mkdir(parents=True, exist_ok=True)`. -/
def makeDirectories (path : HostPath) : HostM Failure Unit :=
  EStateM.adaptExcept .host (mkdirParents path.reverse)

/-- `path.open("wb")`. -/
def openForWriting (path : HostPath) : HostM Failure HostPath := fun s =>
  match openWrite s path with
  | .ok (l, s) => .ok l s
  | .error e => .error (.host e) s

/-- The loop of `extract_file` (lines 58–61), with what the digest has been given. -/
def copyReads (l : HostPath) (raises : Bool) : List Bytes → HostM Failure Bytes
  | [] => if raises then throw .image else pure []
  | chunk :: reads =>
    if chunk = [] then pure []
    else do
      onHost fun s => write s l chunk
      let rest ← copyReads l raises reads
      pure (chunk ++ rest)

/-- `f".{destination.name}.part"`. -/
def temporaryName (name : Bytes) : Bytes := ascii "." ++ name ++ ascii ".part"

/-- The `try` part of `extract_file` (lines 57–64). -/
def copyFile (sha256 : Bytes → Bytes) (source : Option (List Bytes × Bool)) (mode : ℕ)
    (up : HostPath) (name : Bytes) : HostM Failure Bytes :=
  match source with
  | none => throw .image
  | some (reads, raises) => do
    let l ← openForWriting (up ++ [temporaryName name])
    let content ← copyReads l raises reads
    onHost fun s => chmod s (up ++ [temporaryName name]) (mode &&& 0o7777)
    onHost fun s => replace s up (temporaryName name) name
    pure (sha256 content)

/-- The `finally` part of `extract_file` (lines 65–67). -/
def removeTemporary (up : HostPath) (name : Bytes) : HostM Failure Unit := fun s =>
  if pathExists s (up ++ [temporaryName name]) then
    onHost (fun s => unlink s up (temporaryName name)) s
  else .ok () s

/-- `extract_file` (lines 52–68): the digest. -/
def extractFile (sha256 : Bytes → Bytes) (source : Option (List Bytes × Bool)) (mode : ℕ)
    (up : HostPath) (name : Bytes) : HostM Failure Bytes :=
  finallyDo (copyFile sha256 source mode up name) (removeTemporary up name)

/-- The names of `destination` below the output (lines 86 and 94). -/
def destination (relative : Str) : List Bytes :=
  ascii "system" :: (PurePosixPath.parse relative).parts.map fsencode

/-- `destination.parent` for the given output. -/
def destinationParent (output : HostPath) (relative : Str) : HostPath :=
  output ++ (destination relative).dropLast

/-- `destination.name`. -/
def destinationName (relative : Str) : Bytes := (destination relative).getLastD []

/-- The lines 96–97: remove what is at the destination. -/
def removeExisting (up : HostPath) (name : Bytes) : HostM Failure Unit := fun s =>
  if isSymlink s up name || pathExists s (up ++ [name]) then onHost (fun s => unlink s up name) s
  else .ok () s

/-- The lines 95–97. -/
def prepare (up : HostPath) (name : Bytes) : HostM Failure Unit := do
  makeDirectories up
  removeExisting up name

/-- The lines 99–108, by the type of the inode. -/
def extractInode (sha256 : Bytes → Bytes) (up : HostPath) (name : Bytes) (relative : Str) :
    Inode → HostM Failure (Bytes × Str)
  | .file source mode => do
    let digest ← extractFile sha256 source mode up name
    pure (digest, relative)
  | .symbolicLink none => throw .image
  | .symbolicLink (some target) => do
    onHost fun s => symlink s target up name
    pure (sha256 target, relative)
  | .other => throw (.unsupportedInode relative)

/-- The body of the loop of `main` (lines 92–108). -/
def extractEntry (sha256 : Bytes → Bytes) (output : HostPath) (image : Str → Option Inode)
    (relative : Str) : HostM Failure (Bytes × Str) :=
  match image relative with
  | none => throw .image
  | some inode => do
    prepare (destinationParent output relative) (destinationName relative)
    extractInode sha256 (destinationParent output relative) (destinationName relative) relative inode

/-- The loop of `main`. -/
def extractEntries (sha256 : Bytes → Bytes) (output : HostPath) (image : Str → Option Inode) :
    List Str → HostM Failure (List (Bytes × Str))
  | [] => pure []
  | relative :: rest => do
    let record ← extractEntry sha256 output image relative
    let records ← extractEntries sha256 output image rest
    pure (record :: records)

/-- `manifest`. -/
def manifestPath (output : HostPath) : HostPath := output ++ [ascii "PROPRIETARY_SHA256SUMS"]

/-- The text of the manifest (line 112). -/
def manifestText (records : List (Bytes × Str)) : Bytes :=
  records.flatMap fun record =>
    record.1 ++ ascii "  system/" ++ fsencode record.2 ++ ascii "\n"

/-- `manifest.write_text` (lines 111–114). -/
def writeManifest (output : HostPath) (records : List (Bytes × Str)) : HostM Failure Unit := do
  let l ← openForWriting (manifestPath output)
  onHost fun s => write s l (manifestText records)

/-- What a run is given besides the output: the lines of the list and the image. -/
structure Run where
  lines : List Str
  image : Str → Option Inode

/-- `entries` (lines 77–81). -/
def entriesOf (lines : List Str) : Except PathError (List Str) := do
  let paths ← lines.mapM Extract.sourcePath
  pure (paths.filterMap id)

/-- `main` (lines 71–119); `output` is resolved. -/
def extract (sha256 : Bytes → Bytes) (output : HostPath) (run : Run) : HostM Failure Unit :=
  if output = [] then throw .unsafeOutput
  else match entriesOf run.lines with
    | .error e => throw (.sourcePath e)
    | .ok entries =>
      if ¬ entries.Nodup then throw .duplicates
      else do
        makeDirectories (output ++ [ascii "system"])
        let records ← extractEntries sha256 output run.image entries
        writeManifest output records

/-- The host after one run after the other, each to its end or to an exception. -/
def afterRuns (sha256 : Bytes → Bytes) (output : HostPath) (s : HostDisk) (runs : List Run) :
    HostDisk :=
  runs.foldl (fun s run => stateOf (extract sha256 output run s)) s

/-! ## Plain names -/

/-- Only an ASCII character is encoded with an ASCII byte. -/
theorem utf8EncodeChar_head {c : Char} {b : Byte} {rest : Bytes}
    (h : String.utf8EncodeChar c = b :: rest) (hb : b < 0x80) : rest = [] ∧ c.toNat = b.toNat := by
  have hlt : b.toNat < 128 := hb
  simp only [String.utf8EncodeChar] at h
  split_ifs at h with h1 h2 h3 <;> obtain ⟨rfl, rfl⟩ := List.cons.inj h
  · refine ⟨rfl, ?_⟩
    show c.val.toNat = (UInt8.ofNat c.val.toNat).toNat
    rw [UInt8.toNat_ofNat', Nat.mod_eq_of_lt (by omega)]
  all_goals
    simp [UInt8.toNat_ofNat] at hlt
    omega

theorem fsencode_cons_eq {c : Char} {s : Str} {b : Byte} {rest : Bytes}
    (h : fsencode (c :: s) = b :: rest) (hb : b < 0x80) :
    c.toNat = b.toNat ∧ fsencode s = rest := by
  rw [fsencode, List.flatMap_cons] at h
  cases hc : String.utf8EncodeChar c with
  | nil =>
    simp only [String.utf8EncodeChar] at hc
    split_ifs at hc
  | cons b' rest' =>
    rw [hc, List.cons_append] at h
    obtain ⟨rfl, hrest⟩ := List.cons.inj h
    obtain ⟨rfl, hnat⟩ := utf8EncodeChar_head hc hb
    exact ⟨hnat, hrest⟩

theorem fsencode_eq_nil {s : Str} (h : fsencode s = []) : s = [] := by
  cases s with
  | nil => rfl
  | cons c s =>
    rw [fsencode, List.flatMap_cons, List.append_eq_nil_iff] at h
    have hc := h.1
    simp only [String.utf8EncodeChar] at hc
    split_ifs at hc

theorem fsencode_eq_dot {s : Str} (h : fsencode s = ascii ".") : s = str "." := by
  cases s with
  | nil => cases h
  | cons c s =>
    obtain ⟨hc, hs⟩ := fsencode_cons_eq h (by decide)
    rw [fsencode_eq_nil hs, Char.toNat_inj.mp (show c.toNat = '.'.toNat from hc)]
    rfl

theorem fsencode_eq_dotdot {s : Str} (h : fsencode s = ascii "..") : s = str ".." := by
  cases s with
  | nil => cases h
  | cons c s =>
    obtain ⟨hc, hs⟩ := fsencode_cons_eq h (by decide)
    rw [fsencode_eq_dot hs, Char.toNat_inj.mp (show c.toNat = '.'.toNat from hc)]
    rfl

/-- What `source_path` returns has plain names only: none means the directory itself or
    the one above it. -/
theorem comp_of_sourcePath {line relative x : Str}
    (h : Extract.sourcePath line = .ok (some relative))
    (hx : x ∈ (PurePosixPath.parse relative).parts) : comp (fsencode x) = .name (fsencode x) := by
  obtain ⟨l, hl, rfl⟩ := Extract.sourcePath_eq_ok h
  have hseg : ∀ x ∈ l, PurePosixPath.IsSegment x := fun x hx => (hl x hx).1
  rw [PurePosixPath.parse_relative (PurePosixPath.head_toStr_ne_slash hseg),
    PurePosixPath.segments_toStr hseg] at hx
  have hxl : x ∈ l := hx
  rw [comp, if_neg, if_neg]
  · exact fun hdots => (hl x hxl).2 (fsencode_eq_dotdot hdots)
  · exact fun hdot => (hl x hxl).1.ne_dot (fsencode_eq_dot hdot)

end Pro5Android.Stock
