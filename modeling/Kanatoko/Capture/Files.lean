import Kanatoko.Capture.Bundle
import Kanatoko.Lib.Disk

/-!
# Bundle files

`write_file` goes through a temporary file in the destination directory, and `from_file`
reads a bundle back. The process part of the state is what the temporary names are made of.
-/

namespace Kanatoko

open Fallible

structure FileState where
  disk : Disk
  processId : UInt32
  /-- `TEMP_FILE_COUNTER`, which wraps around. -/
  temporaryCounter : UInt64

abbrev FilesM := EStateM CaptureError FileState

namespace FileState

def contents (s : FileState) : Disk.Contents := s.disk.contents

def withDisk (disk : Disk) (s : FileState) : FileState := { s with disk := disk }

@[simp] theorem withDisk_contents (disk : Disk) (s : FileState) :
    (s.withDisk disk).contents = disk.contents := rfl

end FileState

/-- A request of a bundle operation: its failure becomes `CaptureError::CaptureBundleIo`. -/
def onDisk {α : Type} (operation : String) (request : Disk.FileM α) : FilesM α :=
  focus FileState.disk FileState.withDisk (fun _ => .captureBundleIo operation) request

/-! ## Writing -/

def temporaryName (fileName : String) (processId : UInt32) (sequence : UInt64) : String :=
  fileName ++ ".tmp-" ++ toString processId.toNat ++ "-" ++ toString sequence.toNat

def temporaryAttempts : Nat := 32

/-- The attempts that are left; a name that is taken costs one. -/
def createTemporaryFile (parent : Disk.Path) (fileName : String) : Nat → FilesM Disk.Path
  | 0 => throw (.captureBundleIo "create temporary file")
  | attempts + 1 => fun s =>
    let temporaryPath := parent ++ [temporaryName fileName s.processId s.temporaryCounter]
    let s := { s with temporaryCounter := s.temporaryCounter + 1 }
    match Disk.createNew temporaryPath s.disk with
    | .ok _ disk => .ok temporaryPath (s.withDisk disk)
    | .error .alreadyExists disk =>
      createTemporaryFile parent fileName attempts (s.withDisk disk)
    | .error .other disk => .error (.captureBundleIo "create temporary file") (s.withDisk disk)

/-- Removes a file and ignores whether that worked. -/
def cleanupTemporaryFile (temporaryPath : Disk.Path) : FilesM Unit := fun s =>
  .ok () (s.withDisk (Disk.final (Disk.removeFile temporaryPath s.disk)))

/-- A request whose failure first removes the temporary file. -/
def cleaningUp (temporaryPath : Disk.Path) (operation : String) (request : Disk.FileM Unit) :
    FilesM Unit := fun s =>
  match request s.disk with
  | .ok _ disk => .ok () (s.withDisk disk)
  | .error _ disk =>
    (do cleanupTemporaryFile temporaryPath
        throw (.captureBundleIo operation) : FilesM Unit) (s.withDisk disk)

def atomicWrite (path : Disk.Path) (bytes : Bytes) : FilesM Unit := do
  let parent := Disk.parent path
  let fileName ← lift (orError .malformedCaptureBundle (Disk.fileName path))
  let temporaryPath ← createTemporaryFile parent fileName temporaryAttempts
  cleaningUp temporaryPath "write" (Disk.writeAll temporaryPath bytes)
  cleaningUp temporaryPath "sync temporary file" Disk.flush
  cleaningUp temporaryPath "rename" (Disk.rename temporaryPath path)
  onDisk "sync destination directory" (do Disk.flush; Disk.flush)

namespace CapturedFixture

variable [Crates] [BundleCrates]

def writeFile (f : CapturedFixture) (path : Disk.Path) : FilesM Unit := do
  let bytes ← lift f.toBytes
  atomicWrite path bytes

def fromFileWithPolicy (path : Disk.Path) (expectedNetworkPassphrase : String)
    (policy : ProtocolPolicy) : FilesM CapturedFixture := do
  let bytes ← onDisk "read" (Disk.read path)
  lift (fromBundleBytes bytes expectedNetworkPassphrase policy)

end CapturedFixture

/-! ## Steps that succeed -/

/-- A temporary name is longer than the name it is made for. -/
theorem temporaryName_ne (fileName : String) (processId : UInt32) (sequence : UInt64) :
    temporaryName fileName processId sequence ≠ fileName := by
  intro h
  have hlen := congrArg String.length h
  simp only [temporaryName, String.length_append] at hlen
  have : ".tmp-".length = 5 := rfl
  omega

theorem cleaningUp_eq_ok {temporaryPath : Disk.Path} {operation : String}
    {request : Disk.FileM Unit} {s s' : FileState}
    (h : cleaningUp temporaryPath operation request s = .ok () s') :
    request s.disk = .ok () s'.disk := by
  unfold cleaningUp at h
  split at h
  · next hrequest =>
    cases h
    exact hrequest
  · obtain ⟨_, _, _, hthrow⟩ := run_bind_eq_ok.mp h
    exact absurd hthrow run_throw_ne_ok

theorem onDisk_keeps {α : Type} {operation : String} {request : Disk.FileM α}
    (h : Fallible.Keeps Disk.contents request) :
    Fallible.Keeps FileState.contents (onDisk operation request) :=
  h.focus_inside (fun _ _ => rfl) fun _ => rfl

section Load

variable [Crates] [BundleCrates] {path : Disk.Path} {passphrase : String} {policy : ProtocolPolicy}

/-- Loading a bundle changes no file. -/
theorem fromFileWithPolicy_keeps : Fallible.Keeps FileState.contents
    (CapturedFixture.fromFileWithPolicy path passphrase policy) :=
  (onDisk_keeps (Disk.read_keeps path)).bind fun _ => .lift _

/-- A loaded fixture is decoded from the bytes of the file. -/
theorem fromFileWithPolicy_eq_ok {f : CapturedFixture} {s s' : FileState}
    (h : CapturedFixture.fromFileWithPolicy path passphrase policy s = .ok f s') :
    ∃ bytes, s.contents path = some bytes ∧
      CapturedFixture.fromBundleBytes bytes passphrase policy = .ok f := by
  unfold CapturedFixture.fromFileWithPolicy at h
  obtain ⟨bytes, s₁, hload, h₁⟩ := run_bind_eq_ok.mp h
  obtain ⟨disk, hread, rfl⟩ := focus_eq_ok.mp hload
  exact ⟨bytes, Disk.read_eq_ok hread, (run_lift_eq_ok.mp h₁).1⟩

end Load

end Kanatoko
