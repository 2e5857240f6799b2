import Kanatoko.Capture.Files

/-!
# Atomic writes

What a bundle write leaves behind, whichever of its requests fail, and what stands in the
files at every step. The rename is the one request that changes the destination; all that comes
after it is the sync of the directory, whose failure is reported although the new bytes are in
place.
-/

namespace Kanatoko

open Fallible Disk

/-! ## What a write may pass through -/

/-- The destination holds its old file or the new one, and every other file is as it was. -/
structure Undisturbed (old : Contents) (path : Path) (bytes : Bytes) (c : Contents) : Prop where
  destination : c path = old path ∨ c path = some bytes
  others : ∀ p file, p ≠ path → old p = some file → c p = some file

section Write

variable {past : List Contents} {old : Contents} {path temporaryPath : Path} {bytes : Bytes}

theorem Undisturbed.refl : Undisturbed old path bytes old := ⟨Or.inl rfl, fun _ _ _ h => h⟩

/-- A new file beside the destination disturbs nothing. -/
theorem Undisturbed.temporary (hne : temporaryPath ≠ path) (hnew : old temporaryPath = none)
    (file : Bytes) : Undisturbed old path bytes (put old temporaryPath (some file)) where
  destination := Or.inl (put_ne old hne.symm _)
  others := by
    intro p content _ hold
    have hp : p ≠ temporaryPath := by
      rintro rfl
      rw [hnew] at hold
      cases hold
    rw [put_ne old hp, hold]

theorem Undisturbed.written : Undisturbed old path bytes (put old path (some bytes)) :=
  ⟨Or.inr (put_self _ _ _), fun _ _ hp h => by rw [put_ne old hp, h]⟩

theorem put_removed (hnew : old temporaryPath = none) (file : Option Bytes) :
    put (put old temporaryPath file) temporaryPath none = old := by
  rw [put_put, ← hnew]
  funext p
  by_cases hp : p = temporaryPath
  · rw [hp, put_self]
  · rw [put_ne _ hp]

/-! ## The steps -/

/-- A temporary path is not the path it is made for. -/
theorem temporaryPath_ne {fileName : String} (hname : Disk.fileName path = some fileName)
    (processId : UInt32) (sequence : UInt64) :
    parent path ++ [temporaryName fileName processId sequence] ≠ path := by
  intro heq
  have hlast := List.append_cancel_left (heq.trans (parent_append_fileName hname).symm)
  exact temporaryName_ne _ _ _ (List.singleton_inj.mp hlast)

/-- The temporary file is new and empty, or nothing has changed. -/
theorem createTemporaryFile_triple {fileName : String} (hname : Disk.fileName path = some fileName) :
    ∀ attempts, Triple (fun s : FileState => At past (Undisturbed old path bytes) old s.disk)
      (createTemporaryFile (parent path) fileName attempts)
      (fun temporaryPath s => temporaryPath ≠ path ∧ old temporaryPath = none ∧
        At past (Undisturbed old path bytes) (put old temporaryPath (some [])) s.disk)
      (fun e s => e = .captureBundleIo "create temporary file" ∧
        At past (Undisturbed old path bytes) old s.disk)
  | 0 => .throw fun s hs => ⟨rfl, hs⟩
  | attempts + 1 => by
    have ih := createTemporaryFile_triple hname attempts
    have hcreate : ∀ s : FileState, Triple (At past (Undisturbed old path bytes) old)
        (createNew (parent path ++ [temporaryName fileName s.processId s.temporaryCounter])) _ _ :=
      fun s => createNew_triple .refl fun hnew => .temporary (temporaryPath_ne hname _ _) hnew []
    refine ⟨fun s temporaryPath s' hs h => ?_, fun s e s' hs h => ?_⟩
    · rw [createTemporaryFile] at h
      dsimp only at h
      split at h
      · next hcreated =>
        cases h
        exact ⟨temporaryPath_ne hname _ _, (hcreate s).ok hs hcreated⟩
      · next hexists => exact ih.ok ((hcreate s).error hs hexists) h
      · cases h
    · rw [createTemporaryFile] at h
      dsimp only at h
      split at h
      · cases h
      · next hexists => exact ih.error ((hcreate s).error hs hexists) h
      · next hfailed =>
        cases h
        exact ⟨rfl, (hcreate s).error hs hfailed⟩

/-- The files are as they were, or the removal of the temporary file has failed. -/
def TidiedUp (past : List Contents) (old : Contents) (path : Path) (bytes : Bytes) (d : Disk) :
    Prop :=
  At past (Undisturbed old path bytes) old d ∨
    ∃ temporaryPath file, temporaryPath ≠ path ∧ old temporaryPath = none ∧
      At past (Undisturbed old path bytes) (put old temporaryPath (some file)) d ∧
      RemovalFailed temporaryPath d

/-- A request that fails with the temporary file in place is tidied up after. -/
theorem cleaningUp_triple {operation : String} {request : FileM Unit} {c c' : Contents}
    (hne : temporaryPath ≠ path) (hnew : old temporaryPath = none)
    (hrequest : Triple (At past (Undisturbed old path bytes) c) request
      (fun _ => At past (Undisturbed old path bytes) c')
      (fun _ d => ∃ file, At past (Undisturbed old path bytes) (put old temporaryPath (some file)) d)) :
    Triple (fun s : FileState => At past (Undisturbed old path bytes) c s.disk)
      (cleaningUp temporaryPath operation request)
      (fun _ s => At past (Undisturbed old path bytes) c' s.disk)
      (fun e s => e = .captureBundleIo operation ∧
        TidiedUp past old path bytes s.disk) where
  ok := by
    intro s _ s' hs h
    exact hrequest.ok hs (cleaningUp_eq_ok h)
  error := by
    intro s e s' hs h
    unfold cleaningUp at h
    split at h
    · cases h
    · next hfailed =>
      obtain ⟨file, hleft⟩ := hrequest.error hs hfailed
      -- the removal is requested on the disk the failure has left
      have hremoved := removeFile_final hleft (put_self old temporaryPath _)
        (.temporary hne hnew file) (by rw [put_removed hnew]; exact .refl)
      rw [put_removed hnew] at hremoved
      rcases run_bind_eq_error.mp h with hcleanup | ⟨_, s₁, hcleanup, hthrow⟩
      · cases hcleanup
      · cases hcleanup
        obtain ⟨rfl, rfl⟩ := run_throw_eq_error.mp hthrow
        refine ⟨rfl, ?_⟩
        rcases hremoved with hremoved | ⟨hstays, hfailed⟩
        · exact Or.inl hremoved
        · exact Or.inr ⟨temporaryPath, file, hne, hnew, hstays, hfailed⟩

theorem onDisk_triple {α : Type} {operation : String} {request : FileM α} {A : Disk → Prop}
    {B : α → Disk → Prop} {E : Disk → Prop} (h : Triple A request B fun _ => E) :
    Triple (fun s : FileState => A s.disk) (onDisk operation request) (fun a s => B a s.disk)
      (fun e s => e = .captureBundleIo operation ∧ E s.disk) where
  ok := by
    intro s a s' hs hrun
    obtain ⟨disk, hrequest, rfl⟩ := focus_eq_ok.mp hrun
    exact h.ok hs hrequest
  error := by
    intro s e s' hs hrun
    obtain ⟨e', disk, hrequest, rfl, rfl⟩ := focus_eq_error.mp hrun
    exact ⟨rfl, h.error hs hrequest⟩

/-! ## The write -/

/-- The error of the one step behind the rename. -/
def syncDirectoryError : CaptureError := .captureBundleIo "sync destination directory"

/-- What a write that stops with an error leaves. -/
def WriteFailed (past : List Contents) (old : Contents) (path : Path) (bytes : Bytes)
    (e : CaptureError) (d : Disk) : Prop :=
  e = syncDirectoryError ∧ At past (Undisturbed old path bytes) (put old path (some bytes)) d ∨
    e ≠ syncDirectoryError ∧ TidiedUp past old path bytes d

theorem tidied_writeFailed {operation : String} {e : CaptureError} {d : Disk}
    (hoperation : operation ≠ "sync destination directory")
    (h : e = .captureBundleIo operation ∧ TidiedUp past old path bytes d) :
    WriteFailed past old path bytes e d := by
  obtain ⟨rfl, htidied⟩ := h
  exact Or.inr ⟨fun heq => hoperation (CaptureError.captureBundleIo.inj heq), htidied⟩

theorem writing_triple (hne : temporaryPath ≠ path) (hnew : old temporaryPath = none) :
    Triple (fun s : FileState =>
        At past (Undisturbed old path bytes) (put old temporaryPath (some [])) s.disk)
      (cleaningUp temporaryPath "write" (writeAll temporaryPath bytes))
      (fun _ s => At past (Undisturbed old path bytes) (put old temporaryPath (some bytes)) s.disk)
      (fun e s => WriteFailed past old path bytes e s.disk) := by
  have hrequest : Triple (At past (Undisturbed old path bytes) (put old temporaryPath (some [])))
      (writeAll temporaryPath bytes)
      (fun _ => At past (Undisturbed old path bytes) (put old temporaryPath (some bytes)))
      (fun _ d => ∃ file,
        At past (Undisturbed old path bytes) (put old temporaryPath (some file)) d) := by
    have hput : ∀ file, Undisturbed old path bytes
        (put (put old temporaryPath (some [])) temporaryPath (some file)) := by
      intro file
      rw [put_put]
      exact .temporary hne hnew file
    have hwrite := @writeAll_triple past _ _ _ bytes hput
    simpa only [put_put] using hwrite
  exact (cleaningUp_triple hne hnew hrequest).weaken (fun _ hs => hs) (fun _ _ hq => hq)
    fun e s => tidied_writeFailed (by decide)

theorem syncing_triple (hne : temporaryPath ≠ path) (hnew : old temporaryPath = none) :
    Triple (fun s : FileState =>
        At past (Undisturbed old path bytes) (put old temporaryPath (some bytes)) s.disk)
      (cleaningUp temporaryPath "sync temporary file" flush)
      (fun _ s => At past (Undisturbed old path bytes) (put old temporaryPath (some bytes)) s.disk)
      (fun e s => WriteFailed past old path bytes e s.disk) := by
  have hflush : Triple (At past (Undisturbed old path bytes) (put old temporaryPath (some bytes)))
      flush (fun _ => At past (Undisturbed old path bytes) (put old temporaryPath (some bytes)))
      (fun _ => At past (Undisturbed old path bytes) (put old temporaryPath (some bytes))) :=
    flush_triple (.temporary hne hnew bytes)
  exact (cleaningUp_triple hne hnew (hflush.weaken (fun _ hs => hs) (fun _ _ hq => hq)
    fun _ _ hd => ⟨bytes, hd⟩)).weaken (fun _ hs => hs) (fun _ _ hq => hq)
    fun e s => tidied_writeFailed (by decide)

/-- The rename puts the new bytes in place, or nothing has changed. -/
theorem renaming_triple (hne : temporaryPath ≠ path) (hnew : old temporaryPath = none) :
    Triple (fun s : FileState =>
        At past (Undisturbed old path bytes) (put old temporaryPath (some bytes)) s.disk)
      (cleaningUp temporaryPath "rename" (rename temporaryPath path))
      (fun _ s => At past (Undisturbed old path bytes) (put old path (some bytes)) s.disk)
      (fun e s => WriteFailed past old path bytes e s.disk) := by
  have hrename : Triple (At past (Undisturbed old path bytes) (put old temporaryPath (some bytes)))
      (rename temporaryPath path)
      (fun _ => At past (Undisturbed old path bytes) (put old path (some bytes)))
      (fun _ => At past (Undisturbed old path bytes) (put old temporaryPath (some bytes))) := by
    have hmove := @rename_triple past _ _ _ path _ (put_self old temporaryPath (some bytes))
      (Undisturbed.temporary hne hnew bytes) (by rw [put_removed hnew]; exact .written)
    rwa [put_removed hnew] at hmove
  exact (cleaningUp_triple hne hnew (hrename.weaken (fun _ hs => hs) (fun _ _ hq => hq)
    fun _ _ hd => ⟨bytes, hd⟩)).weaken (fun _ hs => hs) (fun _ _ hq => hq)
    fun e s => tidied_writeFailed (by decide)

/-- **Whatever fails, the destination holds its old file or the new one.** -/
theorem atomicWrite_triple :
    Triple (fun s : FileState => At past (Undisturbed old path bytes) old s.disk)
      (atomicWrite path bytes)
      (fun _ s => At past (Undisturbed old path bytes) (put old path (some bytes)) s.disk)
      (fun e s => WriteFailed past old path bytes e s.disk) := by
  have hnamed : Triple (fun s : FileState => At past (Undisturbed old path bytes) old s.disk)
      (lift (orError .malformedCaptureBundle (Disk.fileName path)))
      (fun fileName s => Disk.fileName path = some fileName ∧
        At past (Undisturbed old path bytes) old s.disk)
      (fun e s => WriteFailed past old path bytes e s.disk) :=
    .lift (fun fileName s hname hs => ⟨orError_eq_ok.mp hname, hs⟩) fun e s herror hs => by
      refine Or.inr ⟨?_, Or.inl hs⟩
      rintro rfl
      cases hname : Disk.fileName path with
      | none => rw [hname] at herror; cases herror
      | some fileName => rw [hname] at herror; cases herror
  refine hnamed.bind fun fileName => .assume fun hname => ?_
  refine ((createTemporaryFile_triple hname _).weaken (fun _ hs => hs) (fun _ _ hq => hq)
    fun e s he => tidied_writeFailed (by decide) ⟨he.1, Or.inl he.2⟩).bind fun temporaryPath => ?_
  refine .assume fun hne => .assume fun hnew => ?_
  refine (writing_triple hne hnew).bind fun _ => (syncing_triple hne hnew).bind fun _ =>
    (renaming_triple hne hnew).bind fun _ => ?_
  -- the rename has taken effect, and the directory is opened and synced
  have hflush : Triple (At past (Undisturbed old path bytes) (put old path (some bytes))) flush
      (fun _ => At past (Undisturbed old path bytes) (put old path (some bytes)))
      (fun _ => At past (Undisturbed old path bytes) (put old path (some bytes))) :=
    flush_triple .written
  exact (onDisk_triple (hflush.bind fun _ => hflush)).weaken (fun _ hs => hs) (fun _ _ hq => hq)
    fun e s he => Or.inl he

/-- A write that succeeds has put the bytes in place and has touched no other file. -/
theorem atomicWrite_eq_ok {s s' : FileState} (h : atomicWrite path bytes s = .ok () s') :
    s'.contents = put s.contents path (some bytes) :=
  (atomicWrite_triple.ok (.start s.disk) h).1

end Write

/--
**Bundle writes are atomic, and their errors tell what happened.**

An error of any step up to the rename leaves the destination as it was, and no other file
changed unless the removal of the temporary file failed. Behind the rename, where the directory
is synced, the new bytes are in place, error or not. At no step does the destination hold
anything but its old file or the new one, nor does another file that was there change.
-/
theorem atomic_write_effects (path : Path) (bytes : Bytes) (s : FileState) :
    (∀ s', atomicWrite path bytes s = .ok () s' → s'.contents = put s.contents path (some bytes)) ∧
    (∀ e s', atomicWrite path bytes s = .error e s' → e ≠ syncDirectoryError →
      s'.contents path = s.contents path ∧
      (s'.contents = s.contents ∨ ∃ temporaryPath file, s.contents temporaryPath = none ∧
        s'.contents = put s.contents temporaryPath (some file) ∧
        RemovalFailed temporaryPath s'.disk)) ∧
    (∀ s', atomicWrite path bytes s = .error syncDirectoryError s' →
      s'.contents = put s.contents path (some bytes)) ∧
    ∃ steps, (endWorld (atomicWrite path bytes s)).disk.past = s.disk.past ++ steps ∧
      ∀ c ∈ steps, (c path = s.contents path ∨ c path = some bytes) ∧
        ∀ p file, p ≠ path → s.contents p = some file → c p = some file := by
  have hstart : At s.disk.past (Undisturbed s.contents path bytes) s.contents s.disk := .start _
  have hsteps : ∀ {c : Contents} {d : Disk}, At s.disk.past (Undisturbed s.contents path bytes) c d →
      ∃ steps, d.past = s.disk.past ++ steps ∧
        ∀ c ∈ steps, (c path = s.contents path ∨ c path = some bytes) ∧
          ∀ p file, p ≠ path → s.contents p = some file → c p = some file := by
    rintro c d ⟨_, steps, hpast, hall⟩
    exact ⟨steps, hpast, fun m hm => ⟨(hall m hm).destination, (hall m hm).others⟩⟩
  refine ⟨fun s' h => (atomicWrite_triple.ok hstart h).1, fun e s' h hne => ?_, fun s' h => ?_, ?_⟩
  · rcases atomicWrite_triple.error hstart h with ⟨heq, _⟩ | ⟨_, hback | hleft⟩
    · exact absurd heq hne
    · exact ⟨congrFun hback.1 path, Or.inl hback.1⟩
    · obtain ⟨temporaryPath, file, htemp, hnew, hat, hfailed⟩ := hleft
      have hcontents : s'.contents = put s.contents temporaryPath (some file) := hat.1
      refine ⟨?_, Or.inr ⟨temporaryPath, file, hnew, hcontents, hfailed⟩⟩
      rw [hcontents, put_ne _ htemp.symm]
  · rcases atomicWrite_triple.error hstart h with ⟨_, hat⟩ | ⟨hne, _⟩
    · exact hat.1
    · exact absurd rfl hne
  · cases h : atomicWrite path bytes s with
    | ok _ s' => exact hsteps (atomicWrite_triple.ok hstart h)
    | error e s' =>
      rcases atomicWrite_triple.error hstart h with ⟨_, hat⟩ | ⟨_, hback | hleft⟩
      · exact hsteps hat
      · exact hsteps hback
      · obtain ⟨_, _, _, _, hat, _⟩ := hleft
        exact hsteps hat

/-! ## An error behind the rename -/

/-- The fifth request fails: the destination directory cannot be opened. -/
def noDirectory : FileState where
  disk :=
    { contents := fun p => if p = ["cache.json"] then some [0] else none
      directories := fun _ => false
      verdicts := fun n => if n = 4 then .failed 0 else .done
      past := [] }
  processId := 1
  temporaryCounter := 0

/-- The write stops with an error, and the destination has changed. -/
theorem error_behind_rename : ∃ e s', atomicWrite ["cache.json"] [1] noDirectory = .error e s' ∧
    noDirectory.contents ["cache.json"] = some [0] ∧ s'.contents ["cache.json"] = some [1] := by
  have h : (match atomicWrite ["cache.json"] [1] noDirectory with
    | .ok _ _ => false
    | .error _ s' => decide (s'.contents ["cache.json"] = some [1])) = true := by
    decide +kernel
  split at h
  · cases h
  · next e s' hrun => exact ⟨e, s', hrun, rfl, of_decide_eq_true h⟩

end Kanatoko
