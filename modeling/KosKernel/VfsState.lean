import Mathlib.Data.BitVec

/-! The drive letters of `fs/vfs.c` and the way a path goes to a backend. -/
namespace KosKernel.Vfs
variable {β : Type*}

abbrev Character := BitVec 8

def slash : Character := 0x2f
def backslash : Character := 0x5c
def colon : Character := 0x3a
def dot : Character := 0x2e
def letterC : Character := 0x43

def maxVolumes : ℕ := 8
def maxPath : ℕ := 256

structure Path where
  text : List Character
  nonzero : 0 ∉ text
  deriving DecidableEq

/-- A backend, and which of its functions are there. -/
structure Backend (β : Type*) where
  handle : β
  readFile : Bool
  writeFile : Bool
  fileCount : Bool
  fileAt : Bool
  unlinkFile : Bool
  deriving DecidableEq

structure Volume (β : Type*) where
  letter : Character
  label : List Character
  backend : Backend β
  deriving DecidableEq

abbrev Volumes (β : Type*) := List (Volume β)

def backendIsValid : Option (Backend β) → Bool
  | none => false
  | some backend => backend.readFile && backend.fileCount && backend.fileAt

def normalizeLetter (letter : Character) : Character :=
  if 0x61 ≤ letter ∧ letter ≤ 0x7a then letter - 0x20 else letter

def letterIsValid (letter : Character) : Bool := decide (0x41 ≤ letter ∧ letter ≤ 0x5a)

def findVolume (volumes : Volumes β) (letter : Character) : Option (Volume β) :=
  volumes.find? fun volume => volume.letter == normalizeLetter letter

def vfsMountVolume (volumes : Volumes β) (letter : Character) (label : Option (List Character))
    (backend : Option (Backend β)) : Bool × Volumes β :=
  match label, backend with
  | some label, some backend =>
    if letterIsValid (normalizeLetter letter) = false ∨ label = [] ∨
        backendIsValid (some backend) = false then (false, volumes)
    else if (findVolume volumes (normalizeLetter letter)).isSome ∨ maxVolumes ≤ volumes.length then
      (false, volumes)
    else (true, volumes ++ [⟨normalizeLetter letter, label, backend⟩])
  | _, _ => (false, volumes)

def vfsUnmountVolume (volumes : Volumes β) (letter : Character) : Bool × Volumes β :=
  match findVolume volumes letter with
  | none => (false, volumes)
  | some volume =>
    if volume.letter = letterC then (false, volumes)
    else (true, volumes.eraseP fun volume => volume.letter == normalizeLetter letter)

def systemLabel : List Character := [0x53, 0x79, 0x73, 0x74, 0x65, 0x6d]

def vfsMountRoot (volumes : Volumes β) (backend : Option (Backend β)) : Bool × Volumes β :=
  vfsMountVolume volumes letterC (some systemLabel) backend

def isSeparator (c : Character) : Bool := c == slash || c == backslash

def isBoundary : Option Character → Bool
  | none => true
  | some c => isSeparator c

/-- The loop of `path_is_safe`; `previous` is the character before the rest of the path. -/
def safeFrom (previous : Option Character) : List Character → Bool
  | [] => true
  | c :: rest =>
    !(c == colon ||
      (c == dot && rest.head? == some dot && isBoundary previous && isBoundary rest.tail.head?)) &&
      safeFrom (some c) rest

def pathIsSafe (path : List Character) : Bool := !path.isEmpty && safeFrom none path

/-- The loop that copies the path; `length` characters are copied already. -/
def copyRelative (length : ℕ) : List Character → Option (List Character)
  | [] => some []
  | c :: rest =>
    if length + 1 ≥ maxPath then none
    else (copyRelative (length + 1) rest).map ((if c == backslash then slash else c) :: ·)

def driveLetter : List Character → Character × List Character
  | [] => (letterC, [])
  | [c] => (letterC, [c])
  | c :: d :: rest => if d = colon then (c, rest) else (letterC, c :: d :: rest)

def parsePath (path : Path) : Option (Character × List Character) :=
  let (letter, rest) := driveLetter path.text
  let rest := rest.dropWhile isSeparator
  if pathIsSafe rest = false then none
  else (copyRelative 0 rest).map fun relative => (letter, relative)

def parsePathLocked (volumes : Volumes β) (path : Path) : Option (Backend β × List Character) :=
  match parsePath path with
  | none => none
  | some (letter, relative) =>
    (findVolume volumes letter).map fun volume => (volume.backend, relative)

/-- The backend that a call reaches, with the path it is handed, if it has the function. -/
def reach (volumes : Volumes β) (has : Backend β → Bool) (path : Path) :
    Option (Backend β × List Character) :=
  (parsePathLocked volumes path).filter fun target => has target.1

def vfsReadFile (volumes : Volumes β) (path : Path) : Option (Backend β × List Character) :=
  reach volumes Backend.readFile path

def vfsWriteFile (volumes : Volumes β) (path : Path) (data : Option (List Character))
    (size : BitVec 64) : Option (Backend β × List Character) :=
  if data = none ∧ size ≠ 0 then none else reach volumes Backend.writeFile path

def vfsUnlinkFile (volumes : Volumes β) (path : Path) : Option (Backend β × List Character) :=
  reach volumes Backend.unlinkFile path

inductive Request where
  | read (path : Path)
  | write (path : Path) (data : Option (List Character)) (size : BitVec 64)
  | unlink (path : Path)
  deriving DecidableEq

def Request.path : Request → Path
  | .read path => path
  | .write path _ _ => path
  | .unlink path => path

def Request.target (volumes : Volumes β) : Request → Option (Backend β × List Character)
  | .read path => vfsReadFile volumes path
  | .write path data size => vfsWriteFile volumes path data size
  | .unlink path => vfsUnlinkFile volumes path

inductive MountCall (β : Type*) where
  | mount (letter : Character) (label : Option (List Character)) (backend : Option (Backend β))
  | mountRoot (backend : Option (Backend β))
  | unmount (letter : Character)
  deriving DecidableEq

def step (volumes : Volumes β) : MountCall β → Volumes β
  | .mount letter label backend => (vfsMountVolume volumes letter label backend).2
  | .mountRoot backend => (vfsMountRoot volumes backend).2
  | .unmount letter => (vfsUnmountVolume volumes letter).2

end KosKernel.Vfs
