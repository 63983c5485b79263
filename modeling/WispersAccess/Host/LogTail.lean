import WispersAccess.Foundation.ActionSystem
import WispersAccess.Foundation.Lines
import WispersAccess.Foundation.Slots
import WispersAccess.Wire.Documents
import Mathlib.Algebra.Ring.Nat
import Mathlib.Data.List.Sort
import Mathlib.Data.String.Basic

/-!
# Following the logs

A server writes its log to daily files.  `waserver logs` reads them, oldest first,
while the last of them grows and others come after it.
-/

namespace WispersAccess
namespace Host

open Foundation
open Wire (utf8)

def newline : UInt8 := 10

/-!
## The log files
-/

/-- `LOG_FILE_PREFIX`. -/
def logFileStart : String := "waserver.log."

def isLogFile (name : String) : Bool :=
  logFileStart.toList.isPrefixOf name.toList

structure LogFile where
  name : String
  bytes : List UInt8

/-- The log files of a share, oldest first.  The names have the date in them and sort by it. -/
structure LogDir where
  files : List LogFile
  named : forall f, f ∈ files -> isLogFile f.name = true
  ascending : (files.map LogFile.name).Pairwise (· < ·)

/-- The log files among the entries of the directory, sorted. -/
def listLogFiles (entries : List String) : List String :=
  (entries.filter isLogFile).insertionSort (· ≤ ·)

def appendLast (bytes : List UInt8) : List LogFile -> List LogFile
  | [] => []
  | [f] => [{ f with bytes := f.bytes ++ bytes }]
  | f :: next :: rest => f :: appendLast bytes (next :: rest)

namespace LogDir

def names (d : LogDir) : List String :=
  d.files.map LogFile.name

def bytesOf (d : LogDir) (name : String) : Option (List UInt8) :=
  (d.files.find? fun f => f.name = name).map LogFile.bytes

theorem map_name_appendLast (bytes : List UInt8) (files : List LogFile) :
    (appendLast bytes files).map LogFile.name = files.map LogFile.name := by
  induction files with
  | nil => rfl
  | cons f files ih =>
      cases files with
      | nil => rfl
      | cons next rest => exact congrArg (f.name :: ·) ih

/-- Reading the directory yields its files in any order, among others. -/
def Lists (d : LogDir) (entries : List String) : Prop :=
  (entries.filter isLogFile).isPerm d.names = true

instance (d : LogDir) (entries : List String) : Decidable (d.Lists entries) :=
  inferInstanceAs (Decidable (_ = _))

theorem isLogFile_of_mem_names {d : LogDir} {name : String} (h : name ∈ d.names) :
    isLogFile name = true := by
  rcases List.mem_map.mp h with ⟨f, hf, rfl⟩
  exact d.named f hf

/-- The server logs to the last file. -/
def log (d : LogDir) (bytes : List UInt8) : LogDir where
  files := appendLast bytes d.files
  named := by
    intro f hf
    have hmem := List.mem_map_of_mem (f := LogFile.name) hf
    rw [map_name_appendLast] at hmem
    exact isLogFile_of_mem_names hmem
  ascending := by
    rw [map_name_appendLast]
    exact d.ascending

/-- The next daily file. -/
def rotate (d : LogDir) (name : String) : Option LogDir :=
  if h : isLogFile name = true ∧ forall n, n ∈ d.names -> n < name then
    some {
      files := d.files ++ [{ name, bytes := [] }]
      named := by
        intro f hf
        rcases List.mem_append.mp hf with hf | hf
        · exact d.named f hf
        · rw [List.mem_singleton.mp hf]
          exact h.left
      ascending := by
        rw [List.map_append, List.pairwise_append]
        refine ⟨d.ascending, List.pairwise_singleton _ _, ?_⟩
        intro n hn m hm
        rw [List.mem_singleton.mp hm]
        exact h.right n hn }
  else none

theorem bytesOf_of_split {d : LogDir} {before after : List LogFile} {f : LogFile}
    (h : d.files = before ++ f :: after) : d.bytesOf f.name = some f.bytes := by
  have hnames : (d.files.map LogFile.name).Nodup := d.ascending.imp fun hlt => ne_of_lt hlt
  have hmem : f ∈ d.files := by
    rw [h]
    exact List.mem_append_right before List.mem_cons_self
  unfold bytesOf
  rw [(find_key_eq_some_iff hnames).mpr ⟨hmem, rfl⟩, Option.map_some]

/-- However the directory is read, the files are listed in their order. -/
theorem listLogFiles_eq {d : LogDir} {entries : List String} (h : d.Lists entries) :
    listLogFiles entries = d.names := by
  have hperm : (listLogFiles entries).Perm d.names :=
    (List.perm_insertionSort _ _).trans (List.isPerm_iff.mp h)
  have hsorted : d.names.Pairwise (· ≤ ·) := d.ascending.imp fun hlt => le_of_lt hlt
  exact List.Perm.eq_of_pairwise' (List.pairwise_insertionSort _ _) hsorted hperm

end LogDir

/-!
## The reader
-/

/-- A reader over one share's log files that remembers where it got to. -/
structure LogTail where
  share : String
  /-- The file being read, how far it has been read, and the files that come after it. -/
  path : String
  pos : Nat
  later : List String
  /-- A line the writer has not finished yet. -/
  partialLine : List UInt8
  deriving DecidableEq, Repr

/-- `LogTail::open`. -/
def LogTail.openFirst (share : String) (entries : List String) : Option LogTail :=
  match listLogFiles entries with
  | [] => none
  | path :: later => some { share, path, pos := 0, later, partialLine := [] }

/-- Whether a call of `copy_complete_lines` is under way, and how many bytes its current
`read_until` has got by now. -/
inductive CopyPhase where
  | idle
  | reading (n : Nat)
  deriving DecidableEq, Repr

/-- The log directory, its reader, and what the reader has written. -/
structure Following where
  dir : LogDir
  tail : LogTail
  phase : CopyPhase
  written : List UInt8

/-- What stands in front of each line. -/
def lineHeading (share : String) (prefixed : Bool) : List UInt8 :=
  if prefixed then utf8 (share ++ ": ") else []

namespace Following

section
variable (prefixed : Bool)

def writePartial (s : Following) : Following :=
  { s with
    tail := { s.tail with partialLine := [] }
    written := s.written ++ lineHeading s.tail.share prefixed ++ s.tail.partialLine }

/-- Write an unfinished last line, when nothing more is coming. -/
def copyRest (s : Following) : Following :=
  if s.tail.partialLine = [] then s
  else
    writePartial prefixed
      { s with tail := { s.tail with partialLine := s.tail.partialLine ++ [newline] } }

def openFile (s : Following) (path : String) : Following :=
  { s with tail := { s.tail with path, pos := 0 } }

/-- A round of the loop, once `read_until` has returned. -/
def afterRead (s : Following) (n : Nat) : Following :=
  if s.tail.partialLine.getLast? = some newline then
    { writePartial prefixed s with phase := CopyPhase.reading 0 }
  else if n = 0 then
    match s.tail.later with
    | [] => { s with phase := CopyPhase.idle }
    | next :: later =>
        { openFile (copyRest prefixed { s with tail := { s.tail with later } }) next with
          phase := CopyPhase.reading 0 }
  else { s with phase := CopyPhase.reading 0 }

/-- `read_until` gets the next chunk, and returns at the end of a line or of the file. -/
def takeChunk (s : Following) (n : Nat) (chunk : List UInt8) : Following :=
  let got := (readLine newline chunk).1
  let s' : Following :=
    { s with tail := { s.tail with
        pos := s.tail.pos + got.length
        partialLine := s.tail.partialLine ++ got } }
  if newline ∈ chunk ∨ chunk = [] then afterRead prefixed s' (n + got.length)
  else { s' with phase := CopyPhase.reading (n + got.length) }

end

/-- Queue any files the daily rotation created after the current one. -/
def pickUpRotatedFiles (s : Following) (entries : List String) : Following :=
  let queue := fun (later : List String) path =>
    if s.tail.path < path ∧ path ∉ later then later ++ [path] else later
  { s with tail := { s.tail with later := (listLogFiles entries).foldl queue s.tail.later } }

end Following

inductive FollowAction where
  /-- The server appends to its file. -/
  | log (bytes : List UInt8)
  | rotate (name : String)
  | copyCompleteLines
  /-- The call under way gets a chunk of at most `k + 1` bytes. -/
  | fill (k : Nat)
  | pickUpRotatedFiles (entries : List String)
  deriving DecidableEq, Repr

def followStep (prefixed : Bool) (s : Following) : FollowAction -> Option Following
  | FollowAction.log bytes => some { s with dir := s.dir.log bytes }
  | FollowAction.rotate name => (s.dir.rotate name).map fun dir => { s with dir }
  | FollowAction.copyCompleteLines =>
      if s.phase = CopyPhase.idle then some { s with phase := CopyPhase.reading 0 } else none
  | FollowAction.fill k =>
      match s.phase with
      | CopyPhase.idle => none
      | CopyPhase.reading n =>
          (s.dir.bytesOf s.tail.path).map fun bytes =>
            s.takeChunk prefixed n ((bytes.drop s.tail.pos).take (k + 1))
  | FollowAction.pickUpRotatedFiles entries =>
      if s.phase = CopyPhase.idle ∧ s.dir.Lists entries then some (s.pickUpRotatedFiles entries)
      else none

/-- A reader that has just been opened. -/
def Following.start (dir : LogDir) (tail : LogTail) : Following where
  dir := dir
  tail := tail
  phase := CopyPhase.idle
  written := []

/-!
## One chunk
-/

section
variable {prefixed : Bool} {s : Following} {n : Nat} {chunk line : List UInt8}

/-- The end of a line is found: the line is written. -/
theorem takeChunk_line (prefixed : Bool) (s : Following) (n : Nat) (h : newline ∈ chunk) :
    exists line rest, chunk = line ++ newline :: rest ∧ newline ∉ line ∧
      s.takeChunk prefixed n chunk =
        { s with
          tail := { s.tail with pos := s.tail.pos + (line ++ [newline]).length, partialLine := [] }
          written := s.written ++ lineHeading s.tail.share prefixed ++
            (s.tail.partialLine ++ (line ++ [newline]))
          phase := CopyPhase.reading 0 } := by
  rcases readLine_of_mem h with ⟨line, rest, hchunk, hline, hread⟩
  refine ⟨line, rest, hchunk, hline, ?_⟩
  have hlast : (s.tail.partialLine ++ (line ++ [newline])).getLast? = some newline := by
    rw [← List.append_assoc, List.getLast?_concat]
  unfold Following.takeChunk Following.afterRead
  simp only [hread, h, true_or, if_true, hlast]
  rfl

/-- Neither the end of the line nor of the file is reached. -/
theorem takeChunk_middle (h : newline ∉ chunk) (hchunk : chunk ≠ []) :
    s.takeChunk prefixed n chunk =
      { s with
        tail := { s.tail with
          pos := s.tail.pos + chunk.length, partialLine := s.tail.partialLine ++ chunk }
        phase := CopyPhase.reading (n + chunk.length) } := by
  unfold Following.takeChunk
  simp only [readLine_of_not_mem h, h, hchunk, false_or, if_false]

/-- The file has nothing more. -/
theorem takeChunk_end (h : newline ∉ s.tail.partialLine) : s.takeChunk prefixed n [] =
    if n = 0 then
      match s.tail.later with
      | [] => { s with phase := CopyPhase.idle }
      | next :: later =>
          let rest := Following.copyRest prefixed { s with tail := { s.tail with later } }
          { rest.openFile next with phase := CopyPhase.reading 0 }
    else { s with phase := CopyPhase.reading 0 } := by
  have hlast : s.tail.partialLine.getLast? ≠ some newline :=
    fun hsome => h (List.mem_of_getLast? hsome)
  unfold Following.takeChunk Following.afterRead
  simp only [readLine, List.not_mem_nil, or_true, if_true, List.append_nil, List.length_nil,
    Nat.add_zero, hlast, if_false]

end

/-!
## What a step keeps
-/

/-- Ending an unfinished line leaves where the reader is, and no line unfinished. -/
theorem copyRest_tail (prefixed : Bool) (s : Following) :
    (s.copyRest prefixed).tail = { s.tail with partialLine := [] } := by
  unfold Following.copyRest
  split
  · rename_i hempty
    rw [← hempty]
  · rfl

theorem copyRest_dir (prefixed : Bool) (s : Following) : (s.copyRest prefixed).dir = s.dir := by
  unfold Following.copyRest
  split <;> rfl

/-- Between the states of a reader: at most more is written, and the place changes. -/
structure Writes (s s' : Following) : Prop where
  dir : s'.dir = s.dir
  share : s'.tail.share = s.tail.share
  written : s.written <+: s'.written

theorem writes_refl (s : Following) : Writes s s :=
  ⟨rfl, rfl, List.prefix_rfl⟩

theorem writes_writePartial (prefixed : Bool) (s : Following) :
    Writes s (s.writePartial prefixed) where
  dir := rfl
  share := rfl
  written := by
    show s.written <+: s.written ++ _ ++ _
    rw [List.append_assoc]
    exact List.prefix_append _ _

theorem writes_copyRest (prefixed : Bool) (s : Following) : Writes s (s.copyRest prefixed) := by
  unfold Following.copyRest
  split
  · exact writes_refl s
  · have hwrites := writes_writePartial prefixed
      { s with tail := { s.tail with partialLine := s.tail.partialLine ++ [newline] } }
    exact ⟨hwrites.dir, hwrites.share, hwrites.written⟩

theorem writes_afterRead (prefixed : Bool) (s : Following) (n : Nat) :
    Writes s (s.afterRead prefixed n) := by
  unfold Following.afterRead
  split
  · have hwrites := writes_writePartial prefixed s
    exact ⟨hwrites.dir, hwrites.share, hwrites.written⟩
  · split
    · split
      · exact ⟨rfl, rfl, List.prefix_rfl⟩
      · rename_i later _
        have hwrites := writes_copyRest prefixed { s with tail := { s.tail with later } }
        exact ⟨hwrites.dir, hwrites.share, hwrites.written⟩
    · exact ⟨rfl, rfl, List.prefix_rfl⟩

theorem writes_takeChunk (prefixed : Bool) (s : Following) (n : Nat) (chunk : List UInt8) :
    Writes s (s.takeChunk prefixed n chunk) := by
  unfold Following.takeChunk
  simp only
  split
  · have hwrites := writes_afterRead prefixed
      { s with tail := { s.tail with
          pos := s.tail.pos + (readLine newline chunk).1.length
          partialLine := s.tail.partialLine ++ (readLine newline chunk).1 } }
      (n + (readLine newline chunk).1.length)
    exact ⟨hwrites.dir, hwrites.share, hwrites.written⟩
  · exact ⟨rfl, rfl, List.prefix_rfl⟩

/-- A directory that has only grown: the last file, and files after it. -/
def Grown (base files : List LogFile) : Prop :=
  exists front f more back, base = front ++ [f] ∧
    files = front ++ { f with bytes := f.bytes ++ more } :: back

theorem grown_refl {files : List LogFile} (h : files ≠ []) : Grown files files := by
  rcases List.eq_nil_or_concat files with hnil | ⟨front, f, hfiles⟩
  · exact absurd hnil h
  · refine ⟨front, f, [], [], by rw [hfiles, List.concat_eq_append], ?_⟩
    rw [List.append_nil, hfiles, List.concat_eq_append]

theorem appendLast_append (bytes : List UInt8) (front : List LogFile) (f : LogFile)
    (back : List LogFile) :
    appendLast bytes (front ++ f :: back) = front ++ appendLast bytes (f :: back) := by
  induction front with
  | nil => rfl
  | cons g front ih =>
      have hcons : forall rest, rest ≠ [] -> appendLast bytes (g :: rest) =
          g :: appendLast bytes rest := by
        intro rest hrest
        cases rest with
        | nil => exact absurd rfl hrest
        | cons next rest => rfl
      rw [List.cons_append, hcons _ (by simp), ih, List.cons_append]

theorem rotate_files {d d' : LogDir} {name : String} (h : d.rotate name = some d') :
    d'.files = d.files ++ [{ name, bytes := [] }] := by
  unfold LogDir.rotate at h
  split at h
  · cases h
    rfl
  · cases h

theorem grown_log {base : List LogFile} {d : LogDir} (h : Grown base d.files)
    (bytes : List UInt8) : Grown base (d.log bytes).files := by
  rcases h with ⟨front, f, more, back, hbase, hfiles⟩
  have hlog : (d.log bytes).files = appendLast bytes d.files := rfl
  rw [hlog, hfiles, appendLast_append]
  cases back with
  | nil =>
      refine ⟨front, f, more ++ bytes, [], hbase, ?_⟩
      rw [← List.append_assoc]
      rfl
  | cons next rest => exact ⟨front, f, more, appendLast bytes (next :: rest), hbase, rfl⟩

theorem grown_rotate {base : List LogFile} {d d' : LogDir} (h : Grown base d.files)
    {name : String} (hrotate : d.rotate name = some d') : Grown base d'.files := by
  rcases h with ⟨front, f, more, back, hbase, hfiles⟩
  refine ⟨front, f, more, back ++ [{ name, bytes := [] }], hbase, ?_⟩
  rw [rotate_files hrotate, hfiles, List.append_assoc]
  rfl

/-- Between the states of a run. -/
structure Advances (s s' : Following) : Prop where
  grown : forall base, Grown base s.dir.files -> Grown base s'.dir.files
  share : s'.tail.share = s.tail.share
  written : s.written <+: s'.written

theorem Writes.advances {s s' : Following} (h : Writes s s') : Advances s s' where
  grown := by
    intro base hbase
    rw [h.dir]
    exact hbase
  share := h.share
  written := h.written

/-- A step lets the directory grow, and adds to what is written. -/
theorem advances_step {prefixed : Bool} {s s' : Following} {a : FollowAction}
    (h : followStep prefixed s a = some s') : Advances s s' := by
  cases a with
  | log bytes =>
      cases h
      exact ⟨fun base hbase => grown_log hbase bytes, rfl, List.prefix_rfl⟩
  | rotate name =>
      rcases Option.map_eq_some_iff.mp h with ⟨dir, hrotate, rfl⟩
      exact ⟨fun base hbase => grown_rotate hbase hrotate, rfl, List.prefix_rfl⟩
  | copyCompleteLines =>
      simp only [followStep] at h
      split at h
      · cases h
        exact ⟨fun base hbase => hbase, rfl, List.prefix_rfl⟩
      · cases h
  | pickUpRotatedFiles entries =>
      simp only [followStep] at h
      split at h
      · cases h
        exact ⟨fun base hbase => hbase, rfl, List.prefix_rfl⟩
      · cases h
  | fill k =>
      simp only [followStep] at h
      split at h
      · cases h
      · rcases Option.map_eq_some_iff.mp h with ⟨bytes, -, rfl⟩
        exact (writes_takeChunk prefixed s _ _).advances

theorem advances_run {prefixed : Bool} {s t : Following} {acts : List FollowAction}
    (hrun : Run (followStep prefixed) s acts t) : Advances s t := by
  induction hrun with
  | nil s => exact (writes_refl s).advances
  | cons hstep _ ih =>
      have hfirst := advances_step hstep
      exact ⟨fun base hbase => ih.grown base (hfirst.grown base hbase),
        ih.share.trans hfirst.share, hfirst.written.trans ih.written⟩

/-!
## Where a reader is
-/

/-- The lines of the log, each ended. -/
def LogDir.logged (d : LogDir) : List (List UInt8) :=
  linesOf newline (d.files.map LogFile.bytes)

def printLines (heading : List UInt8) (lines : List (List UInt8)) : List UInt8 :=
  lines.flatMap fun line => heading ++ line

/-- The lines of the files that have been read, and of what has been read of the current one. -/
def copiedLines (before : List LogFile) (cur : LogFile) (pos : Nat) : List (List UInt8) :=
  (before.map LogFile.bytes).flatMap (endedLines newline) ++
    (splitLines newline (cur.bytes.take pos)).lines

/-- The reader is in the file `cur`, after `before`, and has not heard of the last names yet. -/
structure ReaderAt (prefixed : Bool) (s : Following) (before : List LogFile) (cur : LogFile)
    (after : List LogFile) (unknown : List String) : Prop where
  files : s.dir.files = before ++ cur :: after
  path : s.tail.path = cur.name
  later : after.map LogFile.name = s.tail.later ++ unknown
  pos : s.tail.pos ≤ cur.bytes.length
  rest : s.tail.partialLine = (splitLines newline (cur.bytes.take s.tail.pos)).rest
  written : s.written = printLines (lineHeading s.tail.share prefixed)
    (copiedLines before cur s.tail.pos)

section
variable {prefixed : Bool} {s s' : Following} {before after : List LogFile} {cur : LogFile}
  {unknown : List String}

/-- What has been written is the first lines of the log. -/
theorem copiedLines_logged (h : ReaderAt prefixed s before cur after unknown) :
    copiedLines before cur s.tail.pos <+: s.dir.logged := by
  unfold LogDir.logged copiedLines
  rw [h.files, List.map_append, List.map_cons, linesOf_append, List.prefix_append_right_inj]
  refine List.IsPrefix.trans ?_ (lines_of_first cur.bytes _)
  conv => rhs; rw [← List.take_append_drop s.tail.pos cur.bytes, splitLines_append]
  exact LineSplit.lines_feed _ _

theorem bytesOf_current (h : ReaderAt prefixed s before cur after unknown) :
    s.dir.bytesOf s.tail.path = some cur.bytes := by
  rw [h.path]
  exact LogDir.bytesOf_of_split h.files

/-- The reader takes more of its file. -/
theorem take_more {got : List UInt8} (h : got <+: cur.bytes.drop s.tail.pos) :
    cur.bytes.take (s.tail.pos + got.length) = cur.bytes.take s.tail.pos ++ got := by
  rcases h with ⟨rest, hrest⟩
  rw [List.take_add, ← hrest, List.take_left]

/-- The lines copied, once the reader has taken more. -/
theorem copiedLines_more {got : List UInt8}
    (hgot : got <+: cur.bytes.drop s.tail.pos) :
    copiedLines before cur (s.tail.pos + got.length) =
      (before.map LogFile.bytes).flatMap (endedLines newline) ++
        ((splitLines newline (cur.bytes.take s.tail.pos)).feed newline got).lines := by
  rw [copiedLines, take_more hgot, splitLines_append]

theorem printLines_append (heading : List UInt8) (lines more : List (List UInt8)) :
    printLines heading (lines ++ more) = printLines heading lines ++ printLines heading more :=
  List.flatMap_append

theorem pos_more (h : ReaderAt prefixed s before cur after unknown) {got : List UInt8}
    (hgot : got <+: cur.bytes.drop s.tail.pos) : s.tail.pos + got.length ≤ cur.bytes.length := by
  have hlength := hgot.length_le
  rw [List.length_drop] at hlength
  have hpos := h.pos
  omega

theorem readerAt_line (h : ReaderAt prefixed s before cur after unknown) {line : List UInt8}
    (hline : newline ∉ line) (hgot : line ++ [newline] <+: cur.bytes.drop s.tail.pos) :
    ReaderAt prefixed
      { s with
        tail := { s.tail with pos := s.tail.pos + (line ++ [newline]).length, partialLine := [] }
        written := s.written ++ lineHeading s.tail.share prefixed ++
          (s.tail.partialLine ++ (line ++ [newline]))
        phase := CopyPhase.reading 0 } before cur after unknown where
  files := h.files
  path := h.path
  later := h.later
  pos := pos_more h hgot
  rest := by
    show [] = (splitLines newline (cur.bytes.take (s.tail.pos + (line ++ [newline]).length))).rest
    rw [take_more hgot, splitLines_append, LineSplit.feed_line _ hline]
  written := by
    show _ = printLines (lineHeading s.tail.share prefixed)
      (copiedLines before cur (s.tail.pos + (line ++ [newline]).length))
    rw [copiedLines_more hgot, LineSplit.feed_line _ hline, ← List.append_assoc,
      printLines_append, h.written, h.rest]
    simp [copiedLines, printLines]

theorem readerAt_middle (h : ReaderAt prefixed s before cur after unknown) {chunk : List UInt8}
    (hchunk : newline ∉ chunk) (hgot : chunk <+: cur.bytes.drop s.tail.pos) (phase : CopyPhase) :
    ReaderAt prefixed
      { s with
        tail := { s.tail with
          pos := s.tail.pos + chunk.length, partialLine := s.tail.partialLine ++ chunk }
        phase } before cur after unknown where
  files := h.files
  path := h.path
  later := h.later
  pos := pos_more h hgot
  rest := by
    show s.tail.partialLine ++ chunk =
      (splitLines newline (cur.bytes.take (s.tail.pos + chunk.length))).rest
    rw [take_more hgot, splitLines_append, LineSplit.feed_of_not_mem _ hchunk, h.rest]
  written := by
    show s.written = printLines (lineHeading s.tail.share prefixed)
      (copiedLines before cur (s.tail.pos + chunk.length))
    rw [copiedLines_more hgot, LineSplit.feed_of_not_mem _ hchunk]
    exact h.written

/-- An unfinished line is ended where its file is, and the next file has not been read yet. -/
theorem written_copyRest (h : ReaderAt prefixed s before cur after unknown)
    (hend : s.tail.pos = cur.bytes.length) (later : List String) (next : LogFile) :
    (Following.copyRest prefixed { s with tail := { s.tail with later } }).written =
      printLines (lineHeading s.tail.share prefixed) (copiedLines (before ++ [cur]) next 0) := by
  have htake : cur.bytes.take s.tail.pos = cur.bytes := by
    rw [hend, List.take_length]
  have hrest : s.tail.partialLine = (splitLines newline cur.bytes).rest := by
    rw [h.rest, htake]
  have hold := h.written
  unfold copiedLines at hold ⊢
  rw [htake, printLines_append] at hold
  have hnew : ((before ++ [cur]).map LogFile.bytes).flatMap (endedLines newline) ++
      (splitLines newline (next.bytes.take 0)).lines =
      (before.map LogFile.bytes).flatMap (endedLines newline) ++
        (splitLines newline cur.bytes).ended newline := by
    simp [endedLines, splitLines]
  rw [hnew, printLines_append]
  unfold Following.copyRest LineSplit.ended
  rw [← hrest]
  by_cases hempty : s.tail.partialLine = []
  · rw [if_pos hempty, if_pos hempty]
    exact hold
  · rw [if_neg hempty, if_neg hempty, printLines_append, ← List.append_assoc, ← hold]
    simp [Following.writePartial, printLines]

/-- At the end of its file the reader moves on, and ends an unfinished line. -/
theorem readerAt_next (h : ReaderAt prefixed s before cur after unknown)
    (hend : s.tail.pos = cur.bytes.length) {next : String} {later : List String}
    (hlater : s.tail.later = next :: later) :
    exists cur' after', after = cur' :: after' ∧
      ReaderAt prefixed
        { (Following.copyRest prefixed { s with tail := { s.tail with later } }).openFile next with
          phase := CopyPhase.reading 0 } (before ++ [cur]) cur' after' unknown := by
  have hnames := h.later
  rw [hlater] at hnames
  cases hafter : after with
  | nil =>
      rw [hafter] at hnames
      cases hnames
  | cons cur' after' =>
      rw [hafter] at hnames
      rcases List.cons.inj hnames with ⟨hname, hrest⟩
      refine ⟨cur', after', rfl, ?_⟩
      constructor
      · show (Following.copyRest prefixed _).dir.files = _
        rw [copyRest_dir, h.files, hafter, List.append_assoc]
        rfl
      · exact hname.symm
      · show _ = (Following.copyRest prefixed _).tail.later ++ unknown
        rw [copyRest_tail]
        exact hrest
      · exact Nat.zero_le _
      · show (Following.copyRest prefixed _).tail.partialLine = _
        rw [copyRest_tail]
        rfl
      · show (Following.copyRest prefixed _).written =
          printLines (lineHeading (Following.copyRest prefixed _).tail.share prefixed) _
        rw [written_copyRest h hend later cur', copyRest_tail]
        rfl

/-- Only the last file grows, and what has been read of it stays. -/
theorem readerAt_log (h : ReaderAt prefixed s before cur after unknown) (bytes : List UInt8) :
    exists cur' after', ReaderAt prefixed { s with dir := s.dir.log bytes } before cur' after'
      unknown := by
  have hfiles : (s.dir.log bytes).files = before ++ appendLast bytes (cur :: after) := by
    show appendLast bytes s.dir.files = _
    rw [h.files, appendLast_append]
  cases hafter : after with
  | nil =>
      have htake : (cur.bytes ++ bytes).take s.tail.pos = cur.bytes.take s.tail.pos :=
        List.take_append_of_le_length h.pos
      refine ⟨{ cur with bytes := cur.bytes ++ bytes }, [], ?_⟩
      constructor
      · rw [hafter] at hfiles
        exact hfiles
      · exact h.path
      · exact hafter ▸ h.later
      · show s.tail.pos ≤ (cur.bytes ++ bytes).length
        rw [List.length_append]
        exact Nat.le_add_right_of_le h.pos
      · show _ = (splitLines newline ((cur.bytes ++ bytes).take s.tail.pos)).rest
        rw [htake]
        exact h.rest
      · have hwritten := h.written
        unfold copiedLines at hwritten ⊢
        rw [htake]
        exact hwritten
  | cons next rest =>
      refine ⟨cur, appendLast bytes (next :: rest), ?_⟩
      constructor
      · rw [hafter] at hfiles
        exact hfiles
      · exact h.path
      · rw [LogDir.map_name_appendLast, ← hafter]
        exact h.later
      · exact h.pos
      · exact h.rest
      · exact h.written

theorem readerAt_rotate (h : ReaderAt prefixed s before cur after unknown) {name : String}
    {dir : LogDir} (hrotate : s.dir.rotate name = some dir) :
    ReaderAt prefixed { s with dir } before cur (after ++ [{ name, bytes := [] }])
      (unknown ++ [name]) := by
  constructor
  · show dir.files = _
    rw [rotate_files hrotate, h.files, List.append_assoc]
    rfl
  · exact h.path
  · rw [List.map_append, h.later, List.append_assoc]
    rfl
  · exact h.pos
  · exact h.rest
  · exact h.written

/-- The queue gets the names that are not in it yet. -/
theorem queue_known (path : String) (names later : List String)
    (h : forall n, n ∈ names -> n ≤ path ∨ n ∈ later) :
    names.foldl (fun later n => if path < n ∧ n ∉ later then later ++ [n] else later) later =
      later := by
  induction names with
  | nil => rfl
  | cons n names ih =>
      have hn : ¬ (path < n ∧ n ∉ later) := by
        intro hboth
        rcases h n List.mem_cons_self with hle | hmem
        · exact absurd hboth.left (not_lt_of_ge hle)
        · exact hboth.right hmem
      rw [List.foldl_cons, if_neg hn]
      exact ih fun m hm => h m (List.mem_cons_of_mem _ hm)

theorem queue_new (path : String) (names later : List String)
    (hpath : forall n, n ∈ names -> path < n) (hnodup : (later ++ names).Nodup) :
    names.foldl (fun later n => if path < n ∧ n ∉ later then later ++ [n] else later) later =
      later ++ names := by
  induction names generalizing later with
  | nil => simp
  | cons n names ih =>
      have hn : path < n ∧ n ∉ later := by
        refine ⟨hpath n List.mem_cons_self, ?_⟩
        intro hmem
        exact (List.nodup_append.mp hnodup).right.right n hmem n List.mem_cons_self rfl
      have hlist : later ++ n :: names = (later ++ [n]) ++ names := by simp
      rw [List.foldl_cons, if_pos hn,
        ih (later ++ [n]) (fun m hm => hpath m (List.mem_cons_of_mem _ hm)) (hlist ▸ hnodup), hlist]

/-- After a look at the directory, the reader has heard of all its files. -/
theorem readerAt_pickUp (h : ReaderAt prefixed s before cur after unknown)
    {entries : List String} (hentries : s.dir.Lists entries) :
    ReaderAt prefixed (s.pickUpRotatedFiles entries) before cur after [] := by
  have hlater : (s.pickUpRotatedFiles entries).tail.later = s.tail.later ++ unknown := by
    show (listLogFiles entries).foldl _ s.tail.later = _
    have hnames : s.dir.names = (before.map LogFile.name ++ [cur.name] ++ s.tail.later) ++
        unknown := by
      unfold LogDir.names
      rw [h.files, List.map_append, List.map_cons, h.later]
      simp
    have hascending := s.dir.ascending
    have hsame : s.dir.files.map LogFile.name = s.dir.names := rfl
    rw [hsame, hnames] at hascending
    rcases List.pairwise_append.mp hascending with ⟨hknown, -, hunknown⟩
    rcases List.pairwise_append.mp hknown with ⟨hread, -, -⟩
    have hpath : s.tail.path ∈ before.map LogFile.name ++ [cur.name] := by
      rw [h.path]
      simp
    have hold : forall n, n ∈ before.map LogFile.name ++ [cur.name] ++ s.tail.later ->
        n ≤ s.tail.path ∨ n ∈ s.tail.later := by
      intro n hn
      rcases List.mem_append.mp hn with hn | hn
      · refine Or.inl ?_
        rcases List.mem_append.mp hn with hn | hn
        · rw [h.path]
          exact le_of_lt ((List.pairwise_append.mp hread).right.right n hn _ (by simp))
        · rw [h.path, List.mem_singleton.mp hn]
      · exact Or.inr hn
    have hnew : forall n, n ∈ unknown -> s.tail.path < n :=
      fun n hn => hunknown _ (List.mem_append_left _ hpath) n hn
    have hnodup : (s.tail.later ++ unknown).Nodup := by
      refine List.Pairwise.imp ?_ (hascending.sublist ?_)
      · intro a b hlt heq
        exact lt_irrefl _ (heq ▸ hlt)
      · rw [List.append_assoc]
        exact List.sublist_append_right _ _
    rw [LogDir.listLogFiles_eq hentries, hnames, List.foldl_append, queue_known _ _ _ hold,
      queue_new _ _ _ hnew hnodup]
  constructor
  · exact h.files
  · exact h.path
  · rw [hlater, List.append_nil]
    exact h.later
  · exact h.pos
  · exact h.rest
  · exact h.written

/-!
## Steps
-/

/-- What a chunk does to a call. -/
inductive FillEffect (prefixed : Bool) (s s' : Following) (n : Nat) (before : List LogFile)
    (cur : LogFile) (after : List LogFile) (unknown : List String) : Prop where
  /-- More of the file is read. -/
  | more (m : Nat) (reader : ReaderAt prefixed s' before cur after unknown)
      (phase : s'.phase = CopyPhase.reading m) (pos : s.tail.pos < s'.tail.pos)
      (later : s'.tail.later = s.tail.later)
  /-- The file is left for the next one. -/
  | next (cur' : LogFile) (after' : List LogFile) (hafter : after = cur' :: after')
      (reader : ReaderAt prefixed s' (before ++ [cur]) cur' after' unknown)
      (phase : s'.phase = CopyPhase.reading 0) (pos : s'.tail.pos = 0)
      (later : s.tail.later.length = s'.tail.later.length + 1)
  /-- The file may have ended, which the next `read_until` will tell. -/
  | again (hn : n ≠ 0) (hsame : s' = { s with phase := CopyPhase.reading 0 })
  /-- The call returns. -/
  | done (hlater : s.tail.later = []) (hend : s.tail.pos = cur.bytes.length)
      (hsame : s' = { s with phase := CopyPhase.idle })

theorem fill_effect (h : ReaderAt prefixed s before cur after unknown) (n k : Nat) :
    FillEffect prefixed s
      (s.takeChunk prefixed n ((cur.bytes.drop s.tail.pos).take (k + 1))) n before cur after
      unknown := by
  have hchunk : (cur.bytes.drop s.tail.pos).take (k + 1) <+: cur.bytes.drop s.tail.pos :=
    List.take_prefix _ _
  by_cases hnewline : newline ∈ (cur.bytes.drop s.tail.pos).take (k + 1)
  · rcases takeChunk_line prefixed s n hnewline with
      ⟨line, rest, hsplit, hline, htake⟩
    have hgot : line ++ [newline] <+: cur.bytes.drop s.tail.pos := by
      refine List.IsPrefix.trans ⟨rest, ?_⟩ hchunk
      rw [hsplit, List.append_assoc]
      rfl
    rw [htake]
    exact FillEffect.more 0 (readerAt_line h hline hgot) rfl (by simp) rfl
  · by_cases hempty : (cur.bytes.drop s.tail.pos).take (k + 1) = []
    · have hend : s.tail.pos = cur.bytes.length := by
        have hlength := congrArg List.length hempty
        rw [List.length_take, List.length_drop, List.length_nil] at hlength
        have hpos := h.pos
        omega
      have hrest : newline ∉ s.tail.partialLine := by
        rw [h.rest]
        exact not_mem_rest _
      rw [hempty, takeChunk_end hrest]
      by_cases hn : n = 0
      · rw [if_pos hn]
        cases hlater : s.tail.later with
        | nil => exact FillEffect.done hlater hend rfl
        | cons next later =>
            rcases readerAt_next h hend hlater with ⟨cur', after', hafter, hreader⟩
            refine FillEffect.next cur' after' hafter hreader rfl rfl ?_
            show s.tail.later.length = (Following.copyRest prefixed _).tail.later.length + 1
            rw [copyRest_tail, hlater]
            rfl
      · rw [if_neg hn]
        exact FillEffect.again hn rfl
    · rw [takeChunk_middle hnewline hempty]
      refine FillEffect.more _ (readerAt_middle h hnewline hchunk _) rfl ?_ rfl
      exact Nat.lt_add_of_pos_right (List.length_pos_iff.mpr hempty)

/-- A call that is under way can always get its next chunk. -/
theorem followStep_fill (h : ReaderAt prefixed s before cur after unknown) {n : Nat}
    (hphase : s.phase = CopyPhase.reading n) (k : Nat) :
    followStep prefixed s (FollowAction.fill k) =
      some (s.takeChunk prefixed n ((cur.bytes.drop s.tail.pos).take (k + 1))) := by
  simp only [followStep, hphase, bytesOf_current h, Option.map_some]

/-- How many files the reader has heard of. -/
def knownFiles (before : List LogFile) (s : Following) : Nat :=
  before.length + 1 + s.tail.later.length

/-- A reader keeps its place whatever the phase. -/
theorem readerAt_phase (h : ReaderAt prefixed s before cur after unknown) (phase : CopyPhase) :
    ReaderAt prefixed { s with phase } before cur after unknown :=
  ⟨h.files, h.path, h.later, h.pos, h.rest, h.written⟩

/-- Every step leaves the reader in a file, and it forgets none of those it has heard of. -/
theorem readerAt_step (h : ReaderAt prefixed s before cur after unknown) {a : FollowAction}
    (hstep : followStep prefixed s a = some s') :
    exists before' cur' after' unknown', ReaderAt prefixed s' before' cur' after' unknown' ∧
      knownFiles before s ≤ knownFiles before' s' := by
  cases a with
  | log bytes =>
      cases hstep
      rcases readerAt_log h bytes with ⟨cur', after', hlog⟩
      exact ⟨before, cur', after', unknown, hlog, Nat.le_refl _⟩
  | rotate name =>
      rcases Option.map_eq_some_iff.mp hstep with ⟨dir, hrotate, rfl⟩
      exact ⟨before, cur, _, _, readerAt_rotate h hrotate, Nat.le_refl _⟩
  | copyCompleteLines =>
      simp only [followStep] at hstep
      split at hstep
      · cases hstep
        exact ⟨before, cur, after, unknown, readerAt_phase h _, Nat.le_refl _⟩
      · cases hstep
  | pickUpRotatedFiles entries =>
      simp only [followStep] at hstep
      split at hstep
      · rename_i hidle
        cases hstep
        have hpicked := readerAt_pickUp h hidle.right
        refine ⟨before, cur, after, [], hpicked, ?_⟩
        have hold := congrArg List.length h.later
        have hnew := congrArg List.length hpicked.later
        rw [List.length_append] at hold hnew
        unfold knownFiles
        simp only [List.length_nil] at hnew
        omega
      · cases hstep
  | fill k =>
      cases hphase : s.phase with
      | idle =>
          simp only [followStep, hphase] at hstep
          cases hstep
      | reading n =>
          rw [followStep_fill h hphase] at hstep
          have heffect := fill_effect h n k
          rw [Option.some.inj hstep] at heffect
          cases heffect with
          | more m reader _ _ later =>
              refine ⟨before, cur, after, unknown, reader, ?_⟩
              unfold knownFiles
              rw [later]
          | next cur' after' _ reader _ _ later =>
              refine ⟨before ++ [cur], cur', after', unknown, reader, ?_⟩
              unfold knownFiles
              rw [later, List.length_append]
              simp only [List.length_singleton]
              omega
          | again _ hsame =>
              rw [hsame]
              exact ⟨before, cur, after, unknown, readerAt_phase h _, Nat.le_refl _⟩
          | done _ _ hsame =>
              rw [hsame]
              exact ⟨before, cur, after, unknown, readerAt_phase h _, Nat.le_refl _⟩

/-!
## Runs
-/

theorem readerAt_start (prefixed : Bool) {dir : LogDir} {share : String} {entries : List String}
    {tail : LogTail} (hentries : dir.Lists entries)
    (hopen : LogTail.openFirst share entries = some tail) :
    exists cur after, ReaderAt prefixed (Following.start dir tail) [] cur after [] := by
  unfold LogTail.openFirst at hopen
  rw [LogDir.listLogFiles_eq hentries, LogDir.names] at hopen
  cases hfiles : dir.files with
  | nil =>
      rw [hfiles] at hopen
      cases hopen
  | cons cur after =>
      rw [hfiles] at hopen
      cases hopen
      refine ⟨cur, after, hfiles, rfl, ?_, Nat.zero_le _, rfl, rfl⟩
      rw [List.append_nil]
      rfl

theorem readerAt_run {acts : List FollowAction} {t : Following}
    (hrun : Run (followStep prefixed) s acts t)
    (h : ReaderAt prefixed s before cur after unknown) :
    exists before' cur' after' unknown', ReaderAt prefixed t before' cur' after' unknown' := by
  induction hrun generalizing before cur after unknown with
  | nil s => exact ⟨before, cur, after, unknown, h⟩
  | cons hstep _ ih =>
      rcases readerAt_step h hstep with ⟨before', cur', after', unknown', hmid, -⟩
      exact ih hmid

/-- The reader has heard of the files of `base`, which have only grown. -/
def Seen (prefixed : Bool) (base : List LogFile) (s : Following) : Prop :=
  exists before cur after unknown, ReaderAt prefixed s before cur after unknown ∧
    Grown base s.dir.files ∧ base.length ≤ knownFiles before s

/-- A look at the directory shows all its files. -/
theorem seen_pickUp (h : ReaderAt prefixed s before cur after unknown) {entries : List String}
    (hstep : followStep prefixed s (FollowAction.pickUpRotatedFiles entries) = some s') :
    Seen prefixed s.dir.files s' := by
  simp only [followStep] at hstep
  split at hstep
  · rename_i hidle
    cases hstep
    have hpicked := readerAt_pickUp h hidle.right
    refine ⟨before, cur, after, [], hpicked, grown_refl (by simp [h.files]), ?_⟩
    have hlength := congrArg List.length hpicked.later
    rw [List.length_map, List.append_nil] at hlength
    rw [knownFiles, h.files, List.length_append, List.length_cons, hlength]
    omega
  · cases hstep

theorem seen_step {base : List LogFile} (h : Seen prefixed base s) {a : FollowAction}
    (hstep : followStep prefixed s a = some s') : Seen prefixed base s' := by
  rcases h with ⟨before, cur, after, unknown, hreader, hgrown, hknown⟩
  rcases readerAt_step hreader hstep with ⟨before', cur', after', unknown', hreader', hmore⟩
  exact ⟨before', cur', after', unknown', hreader',
    (advances_step hstep).grown base hgrown, Nat.le_trans hknown hmore⟩

/-- The lines of files that have grown are among those copied from as many files. -/
theorem lines_of_grown {base : List LogFile} (hgrown : Grown base (before ++ cur :: after))
    (hlength : base.length ≤ before.length + 1) :
    linesOf newline (base.map LogFile.bytes) <+: copiedLines before cur cur.bytes.length := by
  rcases hgrown with ⟨front, f, more, back, hbase, hfiles⟩
  rw [hbase, List.length_append, List.length_singleton, Nat.add_le_add_iff_right] at hlength
  have hread : before ++ [cur] = front ++ { f with bytes := f.bytes ++ more } ::
      back.take (before.length - front.length) := by
    have htake := congrArg (List.take (before.length + 1)) hfiles
    rw [List.take_append, List.take_append, List.take_of_length_le (Nat.le_succ _),
      List.take_of_length_le (Nat.le_succ_of_le hlength), Nat.add_sub_cancel_left,
      Nat.succ_sub hlength] at htake
    exact htake
  have hcopied : copiedLines before cur cur.bytes.length =
      linesOf newline ((before ++ [cur]).map LogFile.bytes) := by
    rw [copiedLines, List.take_length, List.map_append, List.map_singleton, linesOf_append]
    rfl
  rw [hcopied, hread, hbase, List.map_append, List.map_append]
  exact linesOf_grown _ _ _ _

theorem printLines_prefix (heading : List UInt8) {lines more : List (List UInt8)}
    (h : lines <+: more) : printLines heading lines <+: printLines heading more := by
  rcases h with ⟨rest, hrest⟩
  exact ⟨printLines heading rest, by rw [← printLines_append, hrest]⟩

/-- When a call returns, the lines of all files heard of are written. -/
theorem seen_return {base : List LogFile} (h : Seen prefixed base s) {k : Nat}
    (hstep : followStep prefixed s (FollowAction.fill k) = some s')
    (hidle : s'.phase = CopyPhase.idle) :
    printLines (lineHeading s.tail.share prefixed) (linesOf newline (base.map LogFile.bytes)) <+:
      s'.written := by
  rcases h with ⟨before, cur, after, unknown, hreader, hgrown, hknown⟩
  cases hphase : s.phase with
  | idle =>
      simp only [followStep, hphase] at hstep
      cases hstep
  | reading n =>
      rw [followStep_fill hreader hphase] at hstep
      have heffect := fill_effect hreader n k
      rw [Option.some.inj hstep] at heffect
      cases heffect with
      | more m reader phase _ _ =>
          rw [phase] at hidle
          cases hidle
      | next cur' after' _ reader phase _ _ =>
          rw [phase] at hidle
          cases hidle
      | again _ hsame =>
          rw [hsame] at hidle
          cases hidle
      | done hlater hend hsame =>
          rw [hsame]
          show _ <+: s.written
          rw [hreader.written, hend]
          apply printLines_prefix
          rw [hreader.files] at hgrown
          refine lines_of_grown hgrown ?_
          rw [knownFiles, hlater] at hknown
          exact hknown

/-- Whatever happens in between, once a call has returned, the lines of all files that the reader
had heard of before it are written. -/
theorem seen_run {base : List LogFile} {acts : List FollowAction} {t : Following}
    (hrun : Run (followStep prefixed) s acts t) (h : Seen prefixed base s)
    (hcall : s.phase ≠ CopyPhase.idle ∨ FollowAction.copyCompleteLines ∈ acts)
    (hidle : t.phase = CopyPhase.idle) :
    printLines (lineHeading s.tail.share prefixed) (linesOf newline (base.map LogFile.bytes)) <+:
      t.written := by
  induction hrun with
  | nil s =>
      rcases hcall with hbusy | hmem
      · exact absurd hidle hbusy
      · cases hmem
  | cons hstep hrest ih =>
      rename_i s mid t a rest
      have hshare := (advances_step hstep).share
      by_cases hmid : mid.phase = CopyPhase.idle
      · -- the call goes on in `rest`, unless this step is its return
        have hgoes : FollowAction.copyCompleteLines ∈ rest ->
            printLines (lineHeading s.tail.share prefixed)
              (linesOf newline (base.map LogFile.bytes)) <+: t.written := by
          intro hmem
          rw [← hshare]
          exact ih (seen_step h hstep) (Or.inr hmem) hidle
        cases a with
        | log bytes =>
            cases hstep
            rcases hcall with hbusy | hmem
            · exact absurd hmid hbusy
            · exact hgoes (List.mem_of_ne_of_mem (by simp) hmem)
        | rotate name =>
            rcases Option.map_eq_some_iff.mp hstep with ⟨dir, -, rfl⟩
            rcases hcall with hbusy | hmem
            · exact absurd hmid hbusy
            · exact hgoes (List.mem_of_ne_of_mem (by simp) hmem)
        | copyCompleteLines =>
            simp only [followStep] at hstep
            split at hstep
            · cases hstep
              cases hmid
            · cases hstep
        | pickUpRotatedFiles entries =>
            simp only [followStep] at hstep
            split at hstep
            · rename_i hboth
              rcases hcall with hbusy | hmem
              · exact absurd hboth.left hbusy
              · exact hgoes (List.mem_of_ne_of_mem (by simp) hmem)
            · cases hstep
        | fill k => exact (seen_return h hstep hmid).trans (advances_run hrest).written
      · rw [← hshare]
        exact ih (seen_step h hstep) (Or.inl hmid) hidle

/-!
## Calls end
-/

/-- What is left to read of the current file and of those that have been heard of. -/
def unread (cur : LogFile) (after : List LogFile) (s : Following) : Nat :=
  (cur.bytes.length - s.tail.pos) +
    ((after.take s.tail.later.length).map fun f => f.bytes.length).sum

/-- How much a call still has to do. -/
def workLeft (cur : LogFile) (after : List LogFile) (s : Following) : Nat :=
  match s.phase with
  | CopyPhase.idle => 0
  | CopyPhase.reading n =>
      2 * unread cur after s + 2 * s.tail.later.length + (if n = 0 then 0 else 1) + 1

theorem workLeft_fill (h : ReaderAt prefixed s before cur after unknown) {k : Nat}
    (hstep : followStep prefixed s (FollowAction.fill k) = some s') :
    exists before' cur' after', ReaderAt prefixed s' before' cur' after' unknown ∧
      workLeft cur' after' s' < workLeft cur after s := by
  cases hphase : s.phase with
  | idle =>
      simp only [followStep, hphase] at hstep
      cases hstep
  | reading n =>
      have hwork : workLeft cur after s =
          2 * unread cur after s + 2 * s.tail.later.length + (if n = 0 then 0 else 1) + 1 := by
        rw [workLeft, hphase]
      rw [followStep_fill h hphase] at hstep
      have heffect := fill_effect h n k
      rw [Option.some.inj hstep] at heffect
      cases heffect with
      | more m reader phase pos later =>
          refine ⟨before, cur, after, reader, ?_⟩
          have hpos := reader.pos
          have hflag : (if m = 0 then 0 else 1) ≤ 1 := by split <;> omega
          rw [hwork, workLeft, phase]
          unfold unread
          rw [later]
          simp only
          omega
      | next cur' after' hafter reader phase pos later =>
          refine ⟨before ++ [cur], cur', after', reader, ?_⟩
          have hsum : ((after.take s.tail.later.length).map fun f => f.bytes.length).sum =
              cur'.bytes.length +
                ((after'.take s'.tail.later.length).map fun f => f.bytes.length).sum := by
            rw [hafter, later]
            rfl
          rw [hwork, workLeft, phase]
          unfold unread
          rw [hsum, pos, later]
          simp only [if_true]
          omega
      | again hn hsame =>
          rw [hsame]
          refine ⟨before, cur, after, readerAt_phase h _, ?_⟩
          rw [hwork, if_neg hn]
          exact Nat.lt_succ_self _
      | done hlater hend hsame =>
          rw [hsame]
          refine ⟨before, cur, after, readerAt_phase h _, ?_⟩
          rw [hwork]
          exact Nat.succ_pos _

theorem workLeft_rotate (h : ReaderAt prefixed s before cur after unknown) (dir : LogDir)
    (f : LogFile) : workLeft cur (after ++ [f]) { s with dir } = workLeft cur after s := by
  have hlength := congrArg List.length h.later
  rw [List.length_map, List.length_append] at hlength
  have htake : (after ++ [f]).take s.tail.later.length = after.take s.tail.later.length :=
    List.take_append_of_le_length (by omega)
  unfold workLeft unread
  rw [htake]

def FollowAction.isFill : FollowAction -> Bool
  | fill _ => true
  | _ => false

def FollowAction.isRotate : FollowAction -> Bool
  | rotate _ => true
  | _ => false

/-- While nothing is logged, a call gets no more chunks than it has work left. -/
theorem fills_le {acts : List FollowAction} {t : Following}
    (hrun : Run (followStep prefixed) s acts t)
    (h : ReaderAt prefixed s before cur after unknown)
    (hacts : forall a, a ∈ acts -> a.isFill = true ∨ a.isRotate = true) :
    (acts.filter FollowAction.isFill).length ≤ workLeft cur after s := by
  induction hrun generalizing before cur after unknown with
  | nil s => exact Nat.zero_le _
  | cons hstep htail ih =>
      rename_i s mid t a rest
      have hrest : forall b, b ∈ rest -> b.isFill = true ∨ b.isRotate = true :=
        fun b hb => hacts b (List.mem_cons_of_mem _ hb)
      rcases hacts a List.mem_cons_self with hfill | hrotate
      · cases a with
        | fill k =>
            rcases workLeft_fill h hstep with ⟨before', cur', after', hmid, hless⟩
            rw [List.filter_cons_of_pos rfl, List.length_cons]
            exact Nat.lt_of_le_of_lt (ih hmid hrest) hless
        | log bytes => cases hfill
        | rotate name => cases hfill
        | copyCompleteLines => cases hfill
        | pickUpRotatedFiles entries => cases hfill
      · cases a with
        | rotate name =>
            rcases Option.map_eq_some_iff.mp hstep with ⟨dir, hdir, rfl⟩
            rw [List.filter_cons_of_neg (by simp [FollowAction.isFill]),
              ← workLeft_rotate h dir { name, bytes := [] }]
            exact ih (readerAt_rotate h hdir) hrest
        | log bytes => cases hrotate
        | fill k => cases hrotate
        | copyCompleteLines => cases hrotate
        | pickUpRotatedFiles entries => cases hrotate

end

/-!
## Following
-/

/-- Some of the first lines of the log, each with what stands in front of it, and nothing else. -/
def FirstLines (heading : List UInt8) (logged : List (List UInt8)) (written : List UInt8) : Prop :=
  exists lines, lines <+: logged ∧ written = printLines heading lines

/-- A call that is under way can go on, and while nothing is logged it cannot go on for ever. -/
def Terminates (prefixed : Bool) (s : Following) : Prop :=
  (forall n, s.phase = CopyPhase.reading n -> forall k, exists s',
    followStep prefixed s (FollowAction.fill k) = some s') ∧
  exists bound, forall acts t, Run (followStep prefixed) s acts t ->
    (forall a, a ∈ acts -> a.isFill = true ∨ a.isRotate = true) ->
    (acts.filter FollowAction.isFill).length ≤ bound

/-- What `waserver logs` has written is at every moment the first lines of the log; once it has
looked for new files, the next call writes every line that had ended by then, which the last one of
a file has when the next file is there; and every call ends unless more is logged. -/
theorem follow_copies_log (prefixed : Bool) (share : String) (dir : LogDir)
    (entries : List String) (tail : LogTail) (hentries : dir.Lists entries)
    (hopen : LogTail.openFirst share entries = some tail) (acts : List FollowAction)
    (s : Following) (hrun : Run (followStep prefixed) (Following.start dir tail) acts s) :
    FirstLines (lineHeading share prefixed) s.dir.logged s.written ∧
    (forall listed picked acts' t,
      followStep prefixed s (FollowAction.pickUpRotatedFiles listed) = some picked ->
      Run (followStep prefixed) picked acts' t ->
      FollowAction.copyCompleteLines ∈ acts' -> t.phase = CopyPhase.idle ->
      printLines (lineHeading share prefixed) s.dir.logged <+: t.written) ∧
    Terminates prefixed s := by
  have hshare : s.tail.share = share := by
    rw [(advances_run hrun).share]
    show tail.share = share
    unfold LogTail.openFirst at hopen
    split at hopen
    · cases hopen
    · cases hopen
      rfl
  rcases readerAt_start prefixed hentries hopen with ⟨first, others, hstart⟩
  rcases readerAt_run hrun hstart with ⟨before, cur, after, unknown, hreader⟩
  refine ⟨?_, ?_, ?_, ?_⟩
  · rw [← hshare]
    exact ⟨_, copiedLines_logged hreader, hreader.written⟩
  · intro listed picked acts' t hpick hrun' hcall hidle
    have hlines := seen_run hrun' (seen_pickUp hreader hpick) (Or.inr hcall) hidle
    rw [(advances_step hpick).share, hshare] at hlines
    exact hlines
  · intro n hphase k
    exact ⟨_, followStep_fill hreader hphase k⟩
  · exact ⟨workLeft cur after s, fun acts' t hrun' hacts => fills_le hrun' hreader hacts⟩

/-- A log of one day, whose last line is not finished. -/
def firstDay : LogDir where
  files := [{ name := "waserver.log.2026-05-01", bytes := utf8 "one\ntw" }]
  named := by decide
  ascending := List.pairwise_singleton _ _

def firstDayTail : LogTail where
  share := "photos"
  path := "waserver.log.2026-05-01"
  pos := 0
  later := []
  partialLine := []

/-- The line is finished after the reader has met the end of the file, and the next day follows. -/
def dayChange : List FollowAction := [
  FollowAction.copyCompleteLines, FollowAction.fill 2, FollowAction.fill 9, FollowAction.fill 9,
  FollowAction.fill 9, FollowAction.fill 9,
  FollowAction.log (utf8 "o\nthree"), FollowAction.rotate "waserver.log.2026-05-02",
  FollowAction.log (utf8 "four\nfi"),
  FollowAction.pickUpRotatedFiles ["waserver.log.2026-05-02", "waserver.log.2026-05-01"],
  FollowAction.copyCompleteLines, FollowAction.fill 9, FollowAction.fill 9, FollowAction.fill 9,
  FollowAction.fill 9, FollowAction.fill 9, FollowAction.fill 9, FollowAction.fill 9]

theorem day_change_followed : exists s,
    Run (followStep true) (Following.start firstDay firstDayTail) dayChange s ∧
      s.written = utf8 "photos: one\nphotos: two\nphotos: three\nphotos: four\n" ∧
      FirstLines (lineHeading "photos" true) s.dir.logged s.written := by
  have hwritten : (exec (followStep true) (Following.start firstDay firstDayTail) dayChange).map
      Following.written =
      some (utf8 "photos: one\nphotos: two\nphotos: three\nphotos: four\n") := by
    decide +kernel
  rcases Option.map_eq_some_iff.mp hwritten with ⟨s, hexec, htext⟩
  have hrun := run_iff_exec.mpr hexec
  exact ⟨s, hrun, htext, (follow_copies_log true "photos" firstDay ["waserver.log.2026-05-01"]
    firstDayTail (by decide +kernel) (by decide +kernel) dayChange s hrun).left⟩

end Host
end WispersAccess
