/-
Writing the activity log. Lines go to a file through a buffer; when the file would grow too large it
is moved aside, and so many older ones are kept. Where the file cannot be written, lines go to a
second file, and where that fails too, to the error output.
-/
import Codemod.Disk.Basic
import Codemod.Log.Entry

namespace Codemod

structure LogConfig where
  path : Path
  /-- Where lines go when the path cannot be written. -/
  fallback : Option Path := none
  /-- The size in bytes that a file may reach. -/
  maxSize : Nat := 16 * 1024 * 1024
  /-- How many older files are kept. -/
  maxRotated : Nat := 3
  /-- Seconds between writes that reach the disk for certain; with none, each line does. No time
  passes between the lines here. -/
  syncInterval : Nat := 10
  deriving DecidableEq, Repr

/-- Where lines go. -/
inductive Sink where
  | primary
  | fallback
  | stderr
  | discard
  deriving DecidableEq, Repr

def Sink.name : Sink → String
  | primary => "primary"
  | fallback => "fallback"
  | stderr => "stderr"
  | discard => "discard"

/-- An open file, with the data that has not been written to it yet. -/
structure LogFile where
  place : Disk.Location
  buffer : ByteArray := .empty

/-- A log in use, together with the disk that it writes to and what it has put on the error output. -/
structure Log where
  config : LogConfig
  disk : Disk
  sink : Sink
  file : Option LogFile := none
  /-- Size of the file, the buffer counted in. -/
  written : Nat := 0
  stderr : String := ""

namespace Log

/-- How much a buffer holds. -/
def bufferSize : Nat := 64 * 1024

def report (l : Log) (notice : String) : Log :=
  { l with stderr := l.stderr ++ "[SRW-JSONL] " ++ notice ++ "\n" }

/-- Opens a file to add to it, the directories above it being made where they are missing. -/
def openAppend (d : Disk) (p : Path) : Option (Disk.Location × Nat) × Disk :=
  let (made, d) : Except OsError Unit × Disk := match p.parent? with
    | some q => if q.text.isEmpty then (.ok (), d) else d.makeDirs q
    | none => (.ok (), d)
  match made with
  | .error _ => (none, d)
  | .ok () => match d.openFile false p with
    | .error _ => (none, d)
    | .ok (loc, d) => (some (loc, d.size loc), d)

/-- Goes on with the second file, or with the error output if there is none that can be opened. -/
def openFallback (l : Log) : Log :=
  let primary := l.config.path.text
  match l.config.fallback with
  | none =>
    { l.report ("cannot open " ++ primary ++ " and no fallback configured, logging to stderr")
      with sink := .stderr }
  | some p =>
    match openAppend l.disk p with
    | (some (place, size), disk) =>
      { l.report ("cannot open " ++ primary ++ ", using fallback " ++ p.text)
        with disk, file := some { place }, written := size, sink := .fallback }
    | (none, disk) =>
      { l.report "primary and fallback logs unavailable, logging to stderr"
        with disk, sink := .stderr }

def start (config : LogConfig) (disk : Disk) : Log :=
  match openAppend disk config.path with
  | (some (place, size), disk) =>
    { config, disk, sink := .primary, file := some { place }, written := size }
  | (none, disk) => openFallback { config, disk, sink := .discard }

/-- Writes out what a file's buffer holds; what cannot be written stays there. -/
def flush (l : Log) : Log :=
  match l.file with
  | none => l
  | some f => match l.disk.append f.place f.buffer with
    | .ok disk => { l with disk, file := some { f with buffer := .empty } }
    | .error _ => l

/-- Closes the file, after a last attempt to write out the buffer. -/
def close (l : Log) : Log := { l.flush with file := none }

/-- Writes bytes through the buffer, which is written out first where they would not fit; what is as
large as the buffer goes straight to the file. -/
def put (d : Disk) (f : LogFile) (bytes : ByteArray) : Except OsError (LogFile × Disk) := do
  let (f, d) ←
    if f.buffer.size + bytes.size > bufferSize then
      pure ({ f with buffer := .empty }, ← d.append f.place f.buffer)
    else pure (f, d)
  if bytes.size ≥ bufferSize then return (f, ← d.append f.place bytes)
  else return ({ f with buffer := f.buffer ++ bytes }, d)

/-- Leaves a file that cannot be written. -/
def degrade (l : Log) : Log :=
  let l := l.close
  match l.sink with
  | .primary => l.openFallback
  | .fallback =>
    { l.report "fallback log write failed, logging to stderr" with sink := .stderr }
  | .stderr | .discard => { l with sink := .discard }

def rotatedName (base : Path) (n : Nat) : Path := ⟨base.text ++ "." ++ toString n⟩

def orKeep (d : Disk) (r : Except OsError Disk) : Disk :=
  match r with
  | .ok d => d
  | .error _ => d

/-- Moves the older files up by one, from number `n` down to the first. -/
def shift (base : Path) : Nat → Disk → Disk
  | 0, d => d
  | n + 1, d =>
    shift base n (orKeep d (d.rename (rotatedName base (n + 1)) (rotatedName base (n + 2))))

/-- Drops the oldest file, moves the others up, and moves the current one aside; what fails is left
as it is. -/
def makeRoom (base : Path) (count : Nat) (d : Disk) : Disk :=
  let d := orKeep d (d.remove (rotatedName base count))
  let d := shift base (count - 1) d
  if count > 0 then orKeep d (d.rename base (rotatedName base 1)) else orKeep d (d.remove base)

/-- The file that lines go to now. -/
def base? (l : Log) : Option Path :=
  match l.sink with
  | .primary => some l.config.path
  | .fallback => l.config.fallback
  | .stderr | .discard => none

/-- Begins a new file. -/
def rotate (l : Log) : Log :=
  let l := l.flush.close
  match l.base? with
  | none => l
  | some base =>
    match openAppend (makeRoom base l.config.maxRotated l.disk) base with
    | (some (place, _), disk) => { l with disk, file := some { place }, written := 0 }
    | (none, disk) => { l with disk }.degrade

def isFile (s : Sink) : Bool := s == .primary || s == .fallback

/-- Writes a line to the present sink. -/
def emit (l : Log) (line : String) : Option Log :=
  let bytes := line.toUTF8
  match l.sink with
  | .stderr => some { l with stderr := l.stderr ++ "[SRW-JSONL] " ++ line }
  | .discard => some l
  | .primary | .fallback =>
    match l.file with
    | none => none
    | some f => match put l.disk f bytes with
      | .error _ => none
      | .ok (f, disk) =>
        let l := { l with disk, file := some f, written := l.written + bytes.size }
        some (if l.config.syncInterval == 0 then l.flush else l)

/-- Writes a line, degrading as often as it takes; sinks run out after a few attempts. -/
def writeLine : Nat → Log → String → Log
  | 0, l, _ => l
  | fuel + 1, l, line =>
    let l :=
      if isFile l.sink && l.written > 0 && l.written + line.utf8ByteSize > l.config.maxSize then
        l.rotate
      else l
    match l.emit line with
    | some l => l
    | none => writeLine fuel l.degrade line

def writeEntry (l : Log) (e : LogEntry) : Log := writeLine 4 l e.line

/-- Ends the log. -/
def finish (l : Log) : Log := l.close

end Log

end Codemod
