import Pro5Android.Newc.Canonical
import Pro5Android.Python.Dict

/-!
# The mutations of the ramdisk rewriter

Model of `copied_archive`, `deleted_archive`, `data_replaced_archive` and of
what `main` does with them (`tools/rewrite-newc-ramdisk.py`, lines 218–326 and
439–514). Files of the host are their content, or `none` where `is_file()` is
false; compression, digests and printing are left out.
-/

namespace Pro5Android.Newc

open Python

/-- The exceptions the mutations raise. -/
inductive MutationError
  /-- `base newc archive has no trailer` -/
  | noTrailer
  /-- `max()` of no entries -/
  | emptyMax
  /-- `IndexError` of `base_entries[target_index]` -/
  | indexError
  /-- `donor newc path is absent: {path!r}` -/
  | donorAbsent (path : Path)
  /-- `base newc path is absent: {path!r}` -/
  | baseAbsent (path : Path)
  /-- `OverflowError` of `stat.S_ISREG` -/
  | modeOverflow (mode : ℤ)
  /-- `replacement target is not a regular newc file: {path!r}` -/
  | notRegular (path : Path)
  /-- `replacement source is not a file: {source}` -/
  | sourceNotFile (source : Path)
  /-- `refusing to delete the newc trailer` -/
  | deleteTrailer
  /-- `refusing to delete multiply-linked newc path: {path!r}` -/
  | multiplyLinked (path : Path)
  /-- `refusing to delete nonempty newc directory: {path!r}` -/
  | nonemptyDirectory (path : Path)
deriving DecidableEq, Repr

/-- The second components of the actions the mutations report. -/
inductive Action
  | added
  | replaced
  | removed
deriving DecidableEq, Repr

/-- `{entry.path: entry for entry in entries}`. -/
def entryByPath (entries : List NewcEntry) : Dict Path NewcEntry :=
  Dict.ofPairs (entries.map fun e => (e.path, e))

/-- `{entry.path: index for index, entry in enumerate(entries)}`. -/
def indexByPath (entries : List NewcEntry) : Dict Path ℕ :=
  Dict.ofPairs (entries.zipIdx.map fun ei => (ei.1.path, ei.2))

/-- `entries.insert(index, entry)`. -/
def insertAt (entries : List NewcEntry) (index : ℕ) (e : NewcEntry) : List NewcEntry :=
  entries.take index ++ e :: entries.drop index

/-! ## `copied_archive` -/

/-- The variables of `copied_archive` that its loop changes. -/
structure CopyState where
  baseEntries : List NewcEntry
  baseIndex : Dict Path ℕ
  trailerIndex : ℕ
  nextInode : ℤ
  actions : List (Path × Action)

/-- What copying keeps of the target and takes from the donor (lines 247–257). -/
def copyInto (donorEntry targetEntry : NewcEntry) : NewcEntry :=
  { targetEntry with
    mode := donorEntry.mode, uid := donorEntry.uid, gid := donorEntry.gid,
    links := donorEntry.links, mtime := donorEntry.mtime, rdevMajor := donorEntry.rdevMajor,
    rdevMinor := donorEntry.rdevMinor, data := donorEntry.data }

/-- The body of the loop of `copied_archive` (lines 231–258). -/
def copyStep (donorByPath : Dict Path NewcEntry) (s : CopyState) (path : Path) :
    Except MutationError CopyState :=
  match donorByPath path with
  | none => .error (.donorAbsent path)
  | some donorEntry =>
    match s.baseIndex path with
    | none =>
      let baseEntries := insertAt s.baseEntries s.trailerIndex { donorEntry with inode := s.nextInode }
      .ok { baseEntries := baseEntries, baseIndex := indexByPath baseEntries,
            trailerIndex := s.trailerIndex + 1, nextInode := s.nextInode + 1,
            actions := s.actions ++ [(path, .added)] }
    | some targetIndex =>
      match s.baseEntries[targetIndex]? with
      | none => .error .indexError
      | some targetEntry =>
        .ok { s with
          baseEntries := s.baseEntries.set targetIndex (copyInto donorEntry targetEntry)
          actions := s.actions ++ [(path, .replaced)] }

/-- `copied_archive` (lines 218–260). -/
def copiedArchive (base donor : NewcArchive) (paths : List Path) :
    Except MutationError (NewcArchive × List (Path × Action)) :=
  match indexByPath base.entries trailerPath with
  | none => .error .noTrailer
  | some trailerIndex =>
    match (base.entries.map NewcEntry.inode).max? with
    | none => .error .emptyMax
    | some maxInode => do
      let s ← paths.foldlM (copyStep (entryByPath donor.entries))
        { baseEntries := base.entries, baseIndex := indexByPath base.entries,
          trailerIndex := trailerIndex, nextInode := maxInode + 1, actions := [] }
      .ok (⟨s.baseEntries, base.tail⟩, s.actions)

/-! ## `data_replaced_archive` -/

/-- A `Path` of the host, with what `is_file` and `read_bytes` say. -/
structure Source where
  path : Path
  content : Option Bytes

/-- `stat.S_IFMT(mode) >> 12`. -/
def fileType (mode : ℤ) : ℤ := mode / 0o10000 % 0o20

/-- `stat.S_ISREG`, which takes an unsigned 32-bit mode. -/
def sIsreg (mode : ℤ) : Except MutationError Bool :=
  if 0 ≤ mode ∧ mode < 2 ^ 32 then .ok (fileType mode = 0o10) else .error (.modeOverflow mode)

/-- The body of the loop of `data_replaced_archive` (lines 308–324). -/
def replaceStep (baseIndex : Dict Path ℕ)
    (s : List NewcEntry × List (Path × Source × ℕ)) (replacement : Path × Source) :
    Except MutationError (List NewcEntry × List (Path × Source × ℕ)) :=
  let path := replacement.1
  let source := replacement.2
  match baseIndex path with
  | none => .error (.baseAbsent path)
  | some targetIndex =>
    match s.1[targetIndex]? with
    | none => .error .indexError
    | some targetEntry =>
      if path = trailerPath then .error (.notRegular path)
      else match sIsreg targetEntry.mode with
        | .error err => .error err
        | .ok false => .error (.notRegular path)
        | .ok true =>
          match source.content with
          | none => .error (.sourceNotFile source.path)
          | some payload =>
            .ok (s.1.set targetIndex { targetEntry with data := payload },
              s.2 ++ [(path, source, payload.length)])

/-- `data_replaced_archive` (lines 301–326), less the digests it reports. -/
def dataReplacedArchive (base : NewcArchive) (replacements : List (Path × Source)) :
    Except MutationError (NewcArchive × List (Path × Source × ℕ)) := do
  let s ← replacements.foldlM (replaceStep (indexByPath base.entries)) (base.entries, [])
  .ok (⟨s.1, base.tail⟩, s.2)

/-! ## `deleted_archive` -/

/-- `path` is the name of something below `parent`: `startswith(f"{parent}/")`. -/
def isBelow (parent path : Path) : Bool := (parent ++ ascii "/").isPrefixOf path

/-- The checks of `deleted_archive` on one path (lines 272–290). -/
def deleteCheck (entries : List NewcEntry) (deletePaths : List Path) (path : Path) :
    Except MutationError Unit :=
  match entryByPath entries path with
  | none => .error (.baseAbsent path)
  | some entry =>
    if entry.links > 1 then .error (.multiplyLinked path)
    else if (paths entries).any fun c => isBelow path c && !deletePaths.contains c then
      .error (.nonemptyDirectory path)
    else .ok ()

/-- `deleted_archive` (lines 263–298). -/
def deletedArchive (base : NewcArchive) (deletePaths : List Path) :
    Except MutationError (NewcArchive × List (Path × Action)) :=
  if trailerPath ∈ deletePaths then .error .deleteTrailer
  else do
    deletePaths.forM (deleteCheck base.entries deletePaths)
    .ok (⟨base.entries.filter fun e => !deletePaths.contains e.path, base.tail⟩,
      deletePaths.map fun path => (path, .removed))

/-! ## `main` -/

/-- The arguments `--copy`, `--delete` and `--replace-data`. -/
structure Arguments where
  copy : List Path
  delete : List Path
  replaceData : List (Path × Source)

/-- The paths of `--replace-data`. -/
def Arguments.replacePaths (args : Arguments) : List Path := args.replaceData.map Prod.fst

/-- The exceptions of `main`. -/
inductive MainError
  /-- `copy list contains duplicate paths` -/
  | duplicateCopy
  /-- `delete list contains duplicate paths` -/
  | duplicateDelete
  /-- `replace-data list contains duplicate paths` -/
  | duplicateReplace
  /-- `paths cannot have multiple mutation actions`, with the paths -/
  | multipleActions (overlap : List Path)
  /-- `at least one --copy, --delete, or --replace-data action is required` -/
  | noAction
  /-- `--copy requires a donor ramdisk or boot image` -/
  | noDonor
  /-- an exception of `NewcArchive.parse` -/
  | parse (error : ParseError)
  /-- `base newc archive does not round-trip byte-identically` -/
  | baseRoundTrip
  /-- `donor newc archive does not round-trip byte-identically` -/
  | donorRoundTrip
  /-- an exception of a mutation -/
  | mutation (error : MutationError)
deriving DecidableEq

/-- `overlap` (lines 450–454). -/
def Arguments.overlap (args : Arguments) : List Path :=
  (args.copy.filter fun p => p ∈ args.delete ∨ p ∈ args.replacePaths) ++
    args.delete.filter fun p => p ∈ args.replacePaths

/-- The checks of `main` on the argument lists (lines 443–465). -/
def checkArguments (args : Arguments) (hasDonor : Bool) : Except MainError Unit :=
  if ¬ args.copy.Nodup then .error .duplicateCopy
  else if ¬ args.delete.Nodup then .error .duplicateDelete
  else if ¬ args.replacePaths.Nodup then .error .duplicateReplace
  else if args.overlap ≠ [] then .error (.multipleActions args.overlap)
  else if args.copy = [] ∧ args.delete = [] ∧ args.replaceData = [] then .error .noAction
  else if args.copy ≠ [] ∧ hasDonor = false then .error .noDonor
  else .ok ()

/-- Parsing an input and the round-trip gate. -/
def gatedArchive (cpio : Bytes) (error : MainError) : Except MainError NewcArchive :=
  match NewcArchive.parse cpio with
  | .error err => .error (.parse err)
  | .ok archive => if archive.serialize ≠ cpio then .error error else .ok archive

/-- The donor, where one is given (lines 482–500). -/
def gatedDonor : Option Bytes → Except MainError (Option NewcArchive)
  | none => .ok none
  | some cpio => some <$> gatedArchive cpio .donorRoundTrip

/-- Copying, unless the list is empty (lines 502–508). -/
def copiedIfAny (base : NewcArchive) (donor : Option NewcArchive) (copy : List Path) :
    Except MutationError (NewcArchive × List (Path × Action)) :=
  match copy, donor with
  | _ :: _, some donor => copiedArchive base donor copy
  | _, _ => .ok (base, [])

/-- The mutations of `main` (lines 502–514). -/
def mutated (base : NewcArchive) (donor : Option NewcArchive) (args : Arguments) :
    Except MutationError NewcArchive := do
  let (copied, _) ← copiedIfAny base donor args.copy
  let (replaced, _) ← dataReplacedArchive copied args.replaceData
  let (deleted, _) ← deletedArchive replaced args.delete
  .ok deleted

/-- `main` from the decompressed inputs to the archive it writes. -/
def rewrite (baseCpio : Bytes) (donorCpio : Option Bytes) (args : Arguments) :
    Except MainError (NewcArchive × Option NewcArchive × NewcArchive) := do
  checkArguments args donorCpio.isSome
  let base ← gatedArchive baseCpio .baseRoundTrip
  let donor ← gatedDonor donorCpio
  match mutated base donor args with
  | .error err => .error (.mutation err)
  | .ok rewritten => .ok (base, donor, rewritten)

end Pro5Android.Newc
