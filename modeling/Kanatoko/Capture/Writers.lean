import Kanatoko.Capture.Files
import Kanatoko.Lib.Pool

/-!
# Writers of bundle files

`atomic_write` request by request, so that the requests of several writers can be interleaved.
The threads of a process share one counter for temporary names; different processes have
counters of their own, and all of them share the disk.
-/

namespace Kanatoko

open Fallible Adaptive

inductive FileRequest where
  | createNew (path : Disk.Path)
  | writeAll (path : Disk.Path) (bytes : Bytes)
  /-- `sync_all`, or opening the directory for it. -/
  | flush
  | rename (source destination : Disk.Path)
  | removeFile (path : Disk.Path)

def FileRequest.on : FileRequest → Disk.FileM Unit
  | .createNew path => Disk.createNew path
  | .writeAll path bytes => Disk.writeAll path bytes
  | .flush => Disk.flush
  | .rename source destination => Disk.rename source destination
  | .removeFile path => Disk.removeFile path

inductive WriteOp where
  /-- `TEMP_FILE_COUNTER.fetch_add` in a process. -/
  | sequence (processId : UInt32)
  | request (request : FileRequest)

abbrev WriteOp.Answer : WriteOp → Type
  | sequence _ => UInt64
  | request _ => Except Disk.FileError Unit

abbrev Writer := Client WriteOp WriteOp.Answer (Except CaptureError Unit)

namespace Writer

/-- The attempts that are left to create a temporary file. -/
def createTemporaryFile (processId : UInt32) (parent : Disk.Path) (fileName : String)
    (next : Disk.Path → Writer) : Nat → Writer
  | 0 => .done (.error (.captureBundleIo "create temporary file"))
  | attempts + 1 => .ask (.sequence processId) fun sequence =>
    let temporaryPath := parent ++ [temporaryName fileName processId sequence]
    .ask (.request (.createNew temporaryPath)) fun
      | .ok () => next temporaryPath
      | .error .alreadyExists => createTemporaryFile processId parent fileName next attempts
      | .error .other => .done (.error (.captureBundleIo "create temporary file"))

/-- A request whose failure first removes the temporary file, and does not look at that. -/
def cleaningUp (temporaryPath : Disk.Path) (operation : String) (request : FileRequest)
    (next : Writer) : Writer :=
  .ask (.request request) fun
    | .ok () => next
    | .error _ => .ask (.request (.removeFile temporaryPath)) fun _ =>
      .done (.error (.captureBundleIo operation))

/-- A request whose failure ends the write. -/
def requesting (operation : String) (request : FileRequest) (next : Writer) : Writer :=
  .ask (.request request) fun
    | .ok () => next
    | .error _ => .done (.error (.captureBundleIo operation))

def atomicWrite (processId : UInt32) (path : Disk.Path) (bytes : Bytes) : Writer :=
  match Disk.fileName path with
  | none => .done (.error .malformedCaptureBundle)
  | some fileName =>
    createTemporaryFile processId (Disk.parent path) fileName (fun temporaryPath =>
      cleaningUp temporaryPath "write" (.writeAll temporaryPath bytes) <|
      cleaningUp temporaryPath "sync temporary file" .flush <|
      cleaningUp temporaryPath "rename" (.rename temporaryPath path) <|
      -- the directory is opened and synced
      requesting "sync destination directory" .flush <|
      requesting "sync destination directory" .flush <|
      .done (.ok ())) temporaryAttempts

end Writer

/-- The disk, and the counter of each process. -/
structure SharedFiles where
  disk : Disk
  temporaryCounters : UInt32 → UInt64

namespace SharedFiles

/-- What one process sees. -/
def view (s : SharedFiles) (processId : UInt32) : FileState where
  disk := s.disk
  processId := processId
  temporaryCounter := s.temporaryCounters processId

/-- The counter of a process is one further; it wraps around. -/
def count (processId : UInt32) (s : SharedFiles) : SharedFiles :=
  { s with
    temporaryCounters := fun p =>
      if p = processId then s.temporaryCounters p + 1 else s.temporaryCounters p }

/-- The disk answers a request. -/
def request (r : FileRequest) (s : SharedFiles) : Except Disk.FileError Unit × SharedFiles :=
  match r.on s.disk with
  | .ok () disk => (.ok (), { s with disk := disk })
  | .error e disk => (.error e, { s with disk := disk })

def serve : Server WriteOp WriteOp.Answer SharedFiles
  | .sequence processId, s => (s.temporaryCounters processId, s.count processId)
  | .request r, s => s.request r

end SharedFiles

/-! ## One writer on its own -/

/-- How a process sees the end of a write. -/
def seenBy (processId : UInt32) (r : Except CaptureError Unit × SharedFiles) :
    EStateM.Result CaptureError FileState Unit :=
  match r with
  | (.ok (), s) => .ok () (s.view processId)
  | (.error e, s) => .error e (s.view processId)

namespace Writer

/-- The client does what a computation on files does. -/
def Runs (processId : UInt32) (w : Writer) (x : FilesM Unit) : Prop :=
  ∀ s : SharedFiles, seenBy processId (w.run SharedFiles.serve s) = x (s.view processId)

variable {processId : UInt32} {temporaryPath : Disk.Path} {operation : String}
  {request : FileRequest} {w : Writer} {x : FilesM Unit}

/-- Two requests under one name are one after the other. -/
theorem onDisk_seq (first second : Disk.FileM Unit) :
    onDisk operation (do first; second) = (do onDisk operation first; onDisk operation second) := by
  funext s
  show focus _ _ _ (EStateM.bind first fun _ => second) s = EStateM.bind _ _ s
  unfold onDisk focus EStateM.bind
  cases hfirst : first s.disk with
  | ok _ disk => simp only [hfirst]; rfl
  | error e disk => simp only [hfirst]

theorem run_request (next : Except Disk.FileError Unit → Writer) (s : SharedFiles) :
    Client.run SharedFiles.serve (.ask (.request request) next) s =
      match request.on s.disk with
      | .ok _ disk => (next (.ok ())).run SharedFiles.serve { s with disk := disk }
      | .error e disk => (next (.error e)).run SharedFiles.serve { s with disk := disk } := by
  show (next (s.request request).1).run SharedFiles.serve (s.request request).2 = _
  unfold SharedFiles.request
  cases request.on s.disk <;> rfl

theorem runs_cleaningUp (h : Runs processId w x) :
    Runs processId (cleaningUp temporaryPath operation request w)
      (do Kanatoko.cleaningUp temporaryPath operation request.on; x) := by
  intro s
  rw [cleaningUp, run_request]
  cases hrequest : request.on s.disk with
  | ok _ disk =>
    have hdone : Kanatoko.cleaningUp temporaryPath operation request.on (s.view processId)
        = .ok () (({ s with disk := disk } : SharedFiles).view processId) := by
      show (match request.on s.disk with | .ok _ _ => _ | .error _ _ => _) = _
      rw [hrequest]
      rfl
    rw [run_bind_of_ok hdone]
    exact h { s with disk := disk }
  | error e disk =>
    have hfailed : Kanatoko.cleaningUp temporaryPath operation request.on (s.view processId)
        = .error (.captureBundleIo operation) (({ s with
            disk := Disk.final (Disk.removeFile temporaryPath disk) } : SharedFiles).view
          processId) := by
      show (match request.on s.disk with | .ok _ _ => _ | .error _ _ => _) = _
      rw [hrequest]
      rfl
    rw [run_bind_eq_error.mpr (Or.inl hfailed)]
    dsimp only
    rw [run_request]
    show seenBy processId (match Disk.removeFile temporaryPath disk with
      | .ok _ _ => _ | .error _ _ => _) = _
    cases Disk.removeFile temporaryPath disk <;> rfl

theorem runs_requesting (h : Runs processId w x) :
    Runs processId (requesting operation request w) (do onDisk operation request.on; x) := by
  intro s
  rw [requesting, run_request]
  cases hrequest : request.on s.disk with
  | ok _ disk =>
    have hdone : onDisk operation request.on (s.view processId)
        = .ok () (({ s with disk := disk } : SharedFiles).view processId) :=
      focus_eq_ok.mpr ⟨disk, hrequest, rfl⟩
    rw [run_bind_of_ok hdone]
    exact h { s with disk := disk }
  | error e disk =>
    have hfailed : onDisk operation request.on (s.view processId)
        = .error (.captureBundleIo operation)
          (({ s with disk := disk } : SharedFiles).view processId) :=
      focus_eq_error.mpr ⟨e, disk, hrequest, rfl, rfl⟩
    rw [run_bind_eq_error.mpr (Or.inl hfailed)]
    rfl

theorem view_count (s : SharedFiles) (disk : Disk) :
    ({ s.count processId with disk := disk } : SharedFiles).view processId =
      FileState.withDisk disk
        { s.view processId with temporaryCounter := s.temporaryCounters processId + 1 } := by
  simp [SharedFiles.view, SharedFiles.count, FileState.withDisk]

section Attempt

variable {parent : Disk.Path} {fileName : String} {s : FileState} {disk : Disk}

theorem createTemporaryFile_created (attempts : Nat)
    (h : Disk.createNew (parent ++ [temporaryName fileName s.processId s.temporaryCounter]) s.disk
      = .ok () disk) :
    Kanatoko.createTemporaryFile parent fileName (attempts + 1) s =
      .ok (parent ++ [temporaryName fileName s.processId s.temporaryCounter])
        (FileState.withDisk disk { s with temporaryCounter := s.temporaryCounter + 1 }) := by
  rw [Kanatoko.createTemporaryFile]
  dsimp only
  rw [h]

theorem createTemporaryFile_exists (attempts : Nat)
    (h : Disk.createNew (parent ++ [temporaryName fileName s.processId s.temporaryCounter]) s.disk
      = .error .alreadyExists disk) :
    Kanatoko.createTemporaryFile parent fileName (attempts + 1) s =
      Kanatoko.createTemporaryFile parent fileName attempts
        (FileState.withDisk disk { s with temporaryCounter := s.temporaryCounter + 1 }) := by
  rw [Kanatoko.createTemporaryFile]
  dsimp only
  rw [h]

theorem createTemporaryFile_failed (attempts : Nat)
    (h : Disk.createNew (parent ++ [temporaryName fileName s.processId s.temporaryCounter]) s.disk
      = .error .other disk) :
    Kanatoko.createTemporaryFile parent fileName (attempts + 1) s =
      .error (.captureBundleIo "create temporary file")
        (FileState.withDisk disk { s with temporaryCounter := s.temporaryCounter + 1 }) := by
  rw [Kanatoko.createTemporaryFile]
  dsimp only
  rw [h]

end Attempt

theorem runs_createTemporaryFile (parent : Disk.Path) (fileName : String)
    {next : Disk.Path → Writer} {x : Disk.Path → FilesM Unit}
    (h : ∀ temporaryPath, Runs processId (next temporaryPath) (x temporaryPath)) :
    ∀ attempts, Runs processId (createTemporaryFile processId parent fileName next attempts)
      (do let temporaryPath ← Kanatoko.createTemporaryFile parent fileName attempts
          x temporaryPath)
  | 0 => fun _ => rfl
  | attempts + 1 => by
    intro s
    have ih := runs_createTemporaryFile parent fileName h attempts
    rw [createTemporaryFile, Client.run_ask]
    dsimp only [SharedFiles.serve]
    rw [run_request]
    dsimp only [FileRequest.on]
    show seenBy processId (match Disk.createNew _ s.disk with
      | .ok _ _ => _ | .error _ _ => _) = _
    cases hcreate : Disk.createNew
        (parent ++ [temporaryName fileName processId (s.temporaryCounters processId)]) s.disk with
    | ok _ disk =>
      have hstep : Kanatoko.createTemporaryFile parent fileName (attempts + 1) (s.view processId)
          = .ok (parent ++ [temporaryName fileName processId (s.temporaryCounters processId)])
            (({ s.count processId with disk := disk } : SharedFiles).view processId) := by
        rw [view_count]
        exact createTemporaryFile_created attempts hcreate
      rw [run_bind_of_ok hstep]
      exact h _ { s.count processId with disk := disk }
    | error e disk =>
      cases e with
      | alreadyExists =>
        have hstep : Kanatoko.createTemporaryFile parent fileName (attempts + 1) (s.view processId)
            = Kanatoko.createTemporaryFile parent fileName attempts
              (({ s.count processId with disk := disk } : SharedFiles).view processId) := by
          rw [view_count]
          exact createTemporaryFile_exists attempts hcreate
        exact (ih { s.count processId with disk := disk }).trans (run_bind_congr hstep).symm
      | other =>
        have hstep : Kanatoko.createTemporaryFile parent fileName (attempts + 1) (s.view processId)
            = .error (.captureBundleIo "create temporary file")
              (({ s.count processId with disk := disk } : SharedFiles).view processId) := by
          rw [view_count]
          exact createTemporaryFile_failed attempts hcreate
        exact (run_bind_eq_error.mpr (Or.inl hstep)).symm

/-- **A writer whose requests nobody interrupts does what `atomic_write` does.** -/
theorem runs_atomicWrite (path : Disk.Path) (bytes : Bytes) :
    Runs processId (atomicWrite processId path bytes) (Kanatoko.atomicWrite path bytes) := by
  unfold atomicWrite Kanatoko.atomicWrite
  cases hname : Disk.fileName path with
  | none => exact fun _ => rfl
  | some fileName =>
    refine runs_createTemporaryFile _ fileName (fun temporaryPath => ?_) temporaryAttempts
    refine runs_cleaningUp (runs_cleaningUp (runs_cleaningUp ?_))
    have hlast : Runs processId (requesting "sync destination directory" .flush (.done (.ok ())))
        (do onDisk "sync destination directory" Disk.flush; pure ()) :=
      runs_requesting fun _ => rfl
    rw [bind_pure_unit] at hlast
    rw [onDisk_seq]
    exact runs_requesting hlast

end Writer

end Kanatoko
