import Kanatoko.Capture.Writers
import Kanatoko.Properties.AtomicWrite

/-!
# Concurrent writers of one bundle file

Any number of writers of one file, in threads and processes, their requests interleaved in any
way and each of them failing or not. A temporary file is created exclusively, so it stays with
the writer that has created it, whatever the names are made of; and the rename moves a file that
its writer has written completely. So the destination never holds anything but its old file or
the whole file of one of the writers.
-/

namespace Kanatoko

open Fallible Adaptive Disk

/-! ## What a request does -/

/-- The effect of an answered request on the files. -/
inductive Effect (c : Contents) : FileRequest → Except FileError Unit → Contents → Prop
  | created {path : Path} : c path = none →
      Effect c (.createNew path) (.ok ()) (put c path (some []))
  | written {path : Path} {bytes : Bytes} :
      Effect c (.writeAll path bytes) (.ok ()) (put c path (some bytes))
  | writtenInPart {path : Path} {bytes : Bytes} {e : FileError} (part : Bytes) :
      Effect c (.writeAll path bytes) (.error e) (put c path (some part))
  | moved {source destination : Path} {file : Bytes} : c source = some file →
      Effect c (.rename source destination) (.ok ())
        (put (put c source none) destination (some file))
  | removed {path : Path} : Effect c (.removeFile path) (.ok ()) (put c path none)
  | flushed {answer : Except FileError Unit} : Effect c .flush answer c
  | failed {request : FileRequest} {e : FileError} : Effect c request (.error e) c

/-- The state behind a request whose effect is known. -/
structure Requested (s : SharedFiles) (contents : Contents) (s' : SharedFiles) : Prop where
  contents_eq : s'.disk.contents = contents
  past_eq : s'.disk.past = s.disk.past ++ [contents]

/-- **Every request has one of these effects.** -/
theorem request_effect (r : FileRequest) (s : SharedFiles) :
    ∃ contents, Effect s.disk.contents r (s.request r).1 contents ∧
      Requested s contents (s.request r).2 := by
  unfold SharedFiles.request
  cases r with
  | createNew path =>
    cases hcreate : createNew path s.disk with
    | ok _ disk =>
      simp only [FileRequest.on, hcreate]
      obtain ⟨hfree, _⟩ := createNew_eq_ok hcreate
      refine ⟨_, .created hfree, ?_⟩
      unfold createNew at hcreate
      split at hcreate
      · split at hcreate <;> cases hcreate
        exact ⟨rfl, rfl⟩
      · cases hcreate
    | error e disk =>
      simp only [FileRequest.on, hcreate]
      refine ⟨_, .failed, ?_⟩
      unfold createNew at hcreate
      split at hcreate
      · split at hcreate <;> cases hcreate
        exact ⟨rfl, rfl⟩
      · cases hcreate; exact ⟨rfl, rfl⟩
  | writeAll path bytes =>
    simp only [FileRequest.on, writeAll]
    cases s.disk.verdict with
    | done => exact ⟨_, .written, rfl, rfl⟩
    | failed part => exact ⟨_, .writtenInPart _, rfl, rfl⟩
  | flush =>
    simp only [FileRequest.on, flush]
    cases s.disk.verdict <;> exact ⟨_, .flushed, rfl, rfl⟩
  | rename source destination =>
    simp only [FileRequest.on, rename]
    split
    · next hrename =>
      split at hrename
      · next file _ hfile =>
        split at hrename <;> cases hrename
        exact ⟨_, .moved hfile, rfl, rfl⟩
      · cases hrename
    · next hrename =>
      refine ⟨_, .failed, ?_⟩
      split at hrename
      · split at hrename <;> cases hrename
        exact ⟨rfl, rfl⟩
      · cases hrename; exact ⟨rfl, rfl⟩
  | removeFile path =>
    simp only [FileRequest.on, removeFile]
    split
    · next hremove =>
      split at hremove <;> cases hremove
      exact ⟨_, .removed, rfl, rfl⟩
    · next hremove =>
      refine ⟨_, .failed, ?_⟩
      split at hremove <;> cases hremove
      exact ⟨rfl, rfl⟩

/-! ## The phases of a writer -/

/-- How far a writer is with its temporary file. -/
inductive WritePhase where
  | idle
  | holding (temporaryPath : Path) (complete : Bool)
  | moved

/-- A writer creates a temporary file beside its destination, writes its bytes, moves the file
once it is complete, and removes no other. -/
def writing (path : Path) (bytes : Bytes) : Typestate WriteOp WriteOp.Answer WritePhase where
  allowed
    | _, .sequence _ => True
    | _, .request .flush => True
    | .idle, .request (.createNew temporaryPath) => temporaryPath ≠ path
    | .holding held false, .request (.writeAll temporaryPath file) =>
      temporaryPath = held ∧ file = bytes
    | .holding held true, .request (.rename source destination) =>
      source = held ∧ destination = path
    | .holding held _, .request (.removeFile temporaryPath) => temporaryPath = held
    | _, _ => False
  next
    | phase, .sequence _, _ => phase
    | _, .request (.createNew temporaryPath), .ok () => .holding temporaryPath false
    | _, .request (.writeAll temporaryPath _), .ok () => .holding temporaryPath true
    | _, .request (.rename _ _), .ok () => .moved
    | _, .request (.removeFile _), _ => .idle
    | phase, .request _, _ => phase

/-- Success is reported behind the rename, and of the errors only that of the directory. -/
def WritePhase.Reports : WritePhase → Except CaptureError Unit → Prop
  | phase, .ok () => phase = .moved
  | phase, .error e => phase = .moved ↔ e = syncDirectoryError

theorem WritePhase.reports_idle {e : CaptureError} (h : e ≠ syncDirectoryError) :
    WritePhase.idle.Reports (.error e) :=
  ⟨fun hmoved => (nomatch hmoved), fun heq => absurd heq h⟩

theorem captureBundleIo_ne {operation : String} (h : operation ≠ "sync destination directory") :
    CaptureError.captureBundleIo operation ≠ syncDirectoryError :=
  fun heq => h (CaptureError.captureBundleIo.inj heq)

namespace Writer

variable {processId : UInt32} {path temporaryPath : Path} {bytes : Bytes} {operation : String}

/-- The writer goes on from a phase as it must. -/
abbrev From (path : Path) (bytes : Bytes) (phase : WritePhase) (w : Writer) : Prop :=
  w.Follows (writing path bytes) WritePhase.Reports phase

theorem follows_requesting {w : Writer} (h : From path bytes .moved w) :
    From path bytes .moved (requesting "sync destination directory" .flush w) := by
  refine ⟨trivial, fun answer => ?_⟩
  cases answer with
  | ok _ => exact h
  | error e => exact ⟨fun _ => rfl, fun _ => rfl⟩

/-- A writer that gives up with its temporary file in place reports no error of the directory. -/
theorem follows_cleaningUp {complete complete' : Bool} {request : FileRequest} {w : Writer}
    {phase : WritePhase} (hoperation : operation ≠ "sync destination directory")
    (hallowed : (writing path bytes).allowed (.holding temporaryPath complete) (.request request))
    (hok : (writing path bytes).next (.holding temporaryPath complete) (.request request) (.ok ())
      = phase)
    (herror : ∀ e, (writing path bytes).next (.holding temporaryPath complete) (.request request)
      (.error e) = .holding temporaryPath complete')
    (h : From path bytes phase w) :
    From path bytes (.holding temporaryPath complete)
      (cleaningUp temporaryPath operation request w) := by
  refine ⟨hallowed, fun answer => ?_⟩
  cases answer with
  | ok _ =>
    rw [hok]
    exact h
  | error e =>
    rw [herror]
    refine ⟨by cases complete' <;> rfl, fun answer => ?_⟩
    have hidle : (writing path bytes).next (.holding temporaryPath complete')
        (.request (.removeFile temporaryPath)) answer = .idle := by
      cases answer <;> rfl
    rw [hidle]
    exact WritePhase.reports_idle (captureBundleIo_ne hoperation)

theorem follows_createTemporaryFile {fileName : String} {next : Path → Writer}
    (hname : Disk.fileName path = some fileName)
    (h : ∀ temporaryPath, temporaryPath ≠ path →
      From path bytes (.holding temporaryPath false) (next temporaryPath)) :
    ∀ attempts, From path bytes .idle
      (createTemporaryFile processId (parent path) fileName next attempts)
  | 0 => WritePhase.reports_idle (captureBundleIo_ne (by decide))
  | attempts + 1 => by
    refine ⟨trivial, fun sequence => ⟨temporaryPath_ne hname processId sequence, fun answer => ?_⟩⟩
    rcases answer with (_ | _) | _
    · exact follows_createTemporaryFile hname h attempts
    · exact WritePhase.reports_idle (captureBundleIo_ne (by decide))
    · exact h _ (temporaryPath_ne hname processId sequence)

/-- **Every writer keeps to its phases**, whatever it is answered. -/
theorem follows_atomicWrite (processId : UInt32) (path : Path) (bytes : Bytes) :
    From path bytes .idle (atomicWrite processId path bytes) := by
  unfold atomicWrite
  split
  · exact WritePhase.reports_idle fun heq => nomatch heq
  · next fileName hname =>
    refine follows_createTemporaryFile hname (fun temporaryPath _ => ?_) _
    refine follows_cleaningUp (by decide) ⟨rfl, rfl⟩ rfl (fun _ => rfl) ?_
    refine follows_cleaningUp (by decide) trivial rfl (fun _ => rfl) ?_
    refine follows_cleaningUp (by decide) ⟨rfl, rfl⟩ rfl (fun _ => rfl) ?_
    exact follows_requesting (follows_requesting rfl)

end Writer

/-! ## All writers -/

section Interleaving

variable {ι : Type*} {past : List Contents} {old : Contents} {path : Path}
  {bytes : ι → Bytes} {phases : ι → WritePhase} {s s' : SharedFiles}

/-- The destination holds its old file or the whole file of a writer, and every other file is as
it was. -/
structure Whole (old : Contents) (path : Path) (bytes : ι → Bytes) (c : Contents) : Prop where
  destination : c path = old path ∨ ∃ i, c path = some (bytes i)
  others : ∀ p file, p ≠ path → old p = some file → c p = some file

/-- What the files are like, given how far each writer is. -/
structure Interleaved (past : List Contents) (old : Contents) (path : Path) (bytes : ι → Bytes)
    (phases : ι → WritePhase) (s : SharedFiles) : Prop where
  destination : (∀ i, phases i ≠ .moved) ∧ s.disk.contents path = old path ∨
    ∃ i, phases i = .moved ∧ s.disk.contents path = some (bytes i)
  others : ∀ p file, p ≠ path → old p = some file → s.disk.contents p = some file
  held : ∀ i temporaryPath complete, phases i = .holding temporaryPath complete →
    temporaryPath ≠ path ∧ old temporaryPath = none ∧
      ∃ file, s.disk.contents temporaryPath = some file ∧ (complete = true → file = bytes i)
  alone : ∀ i j temporaryPath complete complete', phases i = .holding temporaryPath complete →
    phases j = .holding temporaryPath complete' → i = j
  passed : ∃ steps, s.disk.past = past ++ steps ∧ ∀ c ∈ steps, Whole old path bytes c

namespace Interleaved

theorem whole (h : Interleaved past old path bytes phases s) :
    Whole old path bytes s.disk.contents where
  destination := h.destination.imp And.right fun ⟨i, _, hi⟩ => ⟨i, hi⟩
  others := h.others

/-- The contents a request leaves are passed through. -/
theorem passed_of_requested {c : Contents} (h : Interleaved past old path bytes phases s)
    (hs : Requested s c s') (hc : Whole old path bytes c) :
    ∃ steps, s'.disk.past = past ++ steps ∧ ∀ c ∈ steps, Whole old path bytes c := by
  obtain ⟨steps, hpast, hsteps⟩ := h.passed
  refine ⟨steps ++ [c], by rw [hs.past_eq, hpast, List.append_assoc], fun m hm => ?_⟩
  rcases List.mem_append.mp hm with hm | hm
  · exact hsteps m hm
  · rw [List.mem_singleton.mp hm]
    exact hc

variable [DecidableEq ι] {i : ι}

/-- A writer that goes on without having changed anything keeps its temporary file or leaves it
behind. -/
theorem unchanged {phase : WritePhase} (h : Interleaved past old path bytes phases s)
    (hs : Requested s s.disk.contents s')
    (hphase : phase = phases i ∨ phase = .idle ∧ phases i ≠ .moved) :
    Interleaved past old path bytes (Function.update phases i phase) s' := by
  have hmoved : ∀ j, Function.update phases i phase j = .moved ↔ phases j = .moved := by
    intro j
    rw [Function.update_apply]
    split
    · next hj =>
      subst hj
      rcases hphase with rfl | ⟨rfl, hne⟩
      · rfl
      · exact ⟨fun heq => (nomatch heq), fun heq => absurd heq hne⟩
    · rfl
  have hheld : ∀ j temporaryPath complete,
      Function.update phases i phase j = .holding temporaryPath complete →
        phases j = .holding temporaryPath complete := by
    intro j temporaryPath complete hj
    rw [Function.update_apply] at hj
    split at hj
    · next hji =>
      subst hji
      rcases hphase with rfl | ⟨rfl, _⟩
      · exact hj
      · cases hj
    · exact hj
  constructor
  · rw [hs.contents_eq]
    simpa only [hmoved, ne_eq] using h.destination
  · rw [hs.contents_eq]
    exact h.others
  · intro j temporaryPath complete hj
    rw [hs.contents_eq]
    exact h.held j temporaryPath complete (hheld _ _ _ hj)
  · intro j k temporaryPath complete complete' hj hk
    exact h.alone j k temporaryPath complete complete' (hheld _ _ _ hj) (hheld _ _ _ hk)
  · exact h.passed_of_requested hs h.whole

/-- What a writer puts in its temporary file is nobody else's. -/
theorem putTemporary {temporaryPath : Path} {complete : Bool} {file : Bytes}
    (h : Interleaved past old path bytes phases s)
    (hs : Requested s (put s.disk.contents temporaryPath (some file)) s')
    (hne : temporaryPath ≠ path) (hnew : old temporaryPath = none)
    (hmoved : phases i ≠ .moved)
    (halone : ∀ j complete', phases j = .holding temporaryPath complete' → i = j)
    (hfile : complete = true → file = bytes i) :
    Interleaved past old path bytes
      (Function.update phases i (.holding temporaryPath complete)) s' := by
  have hothers : ∀ p content, p ≠ path → old p = some content →
      put s.disk.contents temporaryPath (some file) p = some content := by
    intro p content hp hold
    rw [put_ne _ (by rintro rfl; rw [hnew] at hold; cases hold)]
    exact h.others p content hp hold
  have hdestination : put s.disk.contents temporaryPath (some file) path
      = s.disk.contents path := put_ne _ hne.symm _
  constructor
  · rw [hs.contents_eq, hdestination]
    rcases h.destination with ⟨hnone, hold⟩ | ⟨j, hj, hfile⟩
    · refine Or.inl ⟨fun j => ?_, hold⟩
      rw [Function.update_apply]
      split
      · exact fun heq => nomatch heq
      · exact hnone j
    · refine Or.inr ⟨j, ?_, hfile⟩
      rw [Function.update_of_ne (by rintro rfl; exact hmoved hj)]
      exact hj
  · rw [hs.contents_eq]
    exact hothers
  · intro j temporaryPath' complete' hj
    rw [hs.contents_eq]
    rw [Function.update_apply] at hj
    split at hj
    · next hji =>
      subst hji
      cases hj
      exact ⟨hne, hnew, file, put_self _ _ _, hfile⟩
    · next hji =>
      obtain ⟨hne', hnew', file', hfile', hcomplete⟩ := h.held j temporaryPath' complete' hj
      refine ⟨hne', hnew', file', ?_, hcomplete⟩
      rw [put_ne _ (by rintro rfl; exact hji (halone j complete' hj).symm)]
      exact hfile'
  · intro j k temporaryPath' complete' complete'' hj hk
    rw [Function.update_apply] at hj hk
    split at hj <;> split at hk
    · next hji hki => rw [hji, hki]
    · next hji _ => cases hj; rw [hji]; exact halone k _ hk
    · next _ hki => cases hk; rw [hki]; exact (halone j _ hj).symm
    · exact h.alone j k temporaryPath' complete' complete'' hj hk
  · refine h.passed_of_requested hs ⟨?_, hothers⟩
    rw [hdestination]
    exact h.whole.destination

/-- A writer that has lost its temporary file, to the destination or for good. -/
theorem dropTemporary {temporaryPath : Path} {complete : Bool} {phase : WritePhase} {c : Contents}
    (h : Interleaved past old path bytes phases s) (hs : Requested s c s')
    (hheld : phases i = .holding temporaryPath complete)
    (hkeeps : ∀ p, p ≠ path → p ≠ temporaryPath → c p = s.disk.contents p)
    (hphase : phase = .idle ∧ c path = s.disk.contents path ∨
      phase = .moved ∧ c path = some (bytes i)) :
    Interleaved past old path bytes (Function.update phases i phase) s' := by
  obtain ⟨hne, hnew, _⟩ := h.held i temporaryPath complete hheld
  have hothers : ∀ p content, p ≠ path → old p = some content → c p = some content := by
    intro p content hp hold
    rw [hkeeps p hp (by rintro rfl; rw [hnew] at hold; cases hold)]
    exact h.others p content hp hold
  have hholding : ∀ j temporaryPath' complete',
      Function.update phases i phase j = .holding temporaryPath' complete' →
        j ≠ i ∧ phases j = .holding temporaryPath' complete' := by
    intro j temporaryPath' complete' hj
    rw [Function.update_apply] at hj
    split at hj
    · rcases hphase with ⟨rfl, _⟩ | ⟨rfl, _⟩ <;> cases hj
    · next hji => exact ⟨hji, hj⟩
  have hdestination : (∀ j, Function.update phases i phase j ≠ .moved) ∧ c path = old path ∨
      ∃ j, Function.update phases i phase j = .moved ∧ c path = some (bytes j) := by
    rcases hphase with ⟨rfl, hsame⟩ | ⟨rfl, hbytes⟩
    · rw [hsame]
      rcases h.destination with ⟨hnone, hold⟩ | ⟨j, hj, hfile⟩
      · refine Or.inl ⟨fun j => ?_, hold⟩
        rw [Function.update_apply]
        split
        · exact fun heq => nomatch heq
        · exact hnone j
      · refine Or.inr ⟨j, ?_, hfile⟩
        rw [Function.update_of_ne (by rintro rfl; rw [hheld] at hj; cases hj)]
        exact hj
    · exact Or.inr ⟨i, Function.update_self .., hbytes⟩
  constructor
  · rw [hs.contents_eq]
    exact hdestination
  · rw [hs.contents_eq]
    exact hothers
  · intro j temporaryPath' complete' hj
    obtain ⟨hji, hj⟩ := hholding j temporaryPath' complete' hj
    obtain ⟨hne', hnew', file, hfile, hcomplete⟩ := h.held j temporaryPath' complete' hj
    refine ⟨hne', hnew', file, ?_, hcomplete⟩
    rw [hs.contents_eq, hkeeps _ hne' (by rintro rfl; exact hji (h.alone j i _ _ _ hj hheld))]
    exact hfile
  · intro j k temporaryPath' complete' complete'' hj hk
    exact h.alone j k temporaryPath' complete' complete'' (hholding _ _ _ hj).2 (hholding _ _ _ hk).2
  · refine h.passed_of_requested hs ⟨?_, hothers⟩
    exact hdestination.imp And.right fun ⟨j, _, hj⟩ => ⟨j, hj⟩

/-- **One request of one writer.** -/
theorem serve (h : Interleaved past old path bytes phases s) {op : WriteOp}
    (hallowed : (writing path (bytes i)).allowed (phases i) op) :
    Interleaved past old path bytes
      (Function.update phases i ((writing path (bytes i)).next (phases i) op
        (SharedFiles.serve op s).1)) (SharedFiles.serve op s).2 := by
  cases op with
  | sequence processId =>
    rw [show (writing path (bytes i)).next (phases i) (.sequence processId) _ = phases i from rfl,
      Function.update_eq_self]
    exact ⟨h.destination, h.others, h.held, h.alone, h.passed⟩
  | request r =>
    obtain ⟨c, heffect, hs⟩ := request_effect r s
    show Interleaved past old path bytes (Function.update phases i
      ((writing path (bytes i)).next (phases i) (.request r) (s.request r).1)) (s.request r).2
    generalize s.request r = answered at heffect hs
    obtain ⟨answer, s'⟩ := answered
    cases hphase : phases i with
    | moved =>
      rw [hphase] at hallowed
      cases r with
      | flush =>
        cases heffect <;> exact h.unchanged hs (Or.inl hphase.symm)
      | createNew _ | writeAll _ _ | rename _ _ | removeFile _ => exact hallowed.elim
    | idle =>
      rw [hphase] at hallowed
      cases r with
      | flush => cases heffect <;> exact h.unchanged hs (Or.inl hphase.symm)
      | createNew temporaryPath =>
        cases heffect with
        | failed => exact h.unchanged hs (Or.inl hphase.symm)
        | created hfree =>
          refine h.putTemporary hs hallowed ?_ (by rw [hphase]; exact fun heq => nomatch heq)
            (fun j complete hj => ?_) fun heq => nomatch heq
          · by_contra hne
            obtain ⟨file, hfile⟩ := Option.ne_none_iff_exists'.mp hne
            rw [h.others temporaryPath file hallowed hfile] at hfree
            cases hfree
          · obtain ⟨_, _, file, hfile, _⟩ := h.held j temporaryPath complete hj
            rw [hfile] at hfree
            cases hfree
      | writeAll _ _ | rename _ _ | removeFile _ => exact hallowed.elim
    | holding temporaryPath complete =>
      rw [hphase] at hallowed
      obtain ⟨hne, hnew, file, hfile, hcomplete⟩ := h.held i temporaryPath complete hphase
      have hnot : phases i ≠ .moved := by rw [hphase]; exact fun heq => nomatch heq
      have halone : ∀ j complete', phases j = .holding temporaryPath complete' → i = j :=
        fun j complete' hj => h.alone i j temporaryPath complete complete' hphase hj
      cases r with
      | flush => cases heffect <;> exact h.unchanged hs (Or.inl hphase.symm)
      | createNew _ => exact hallowed.elim
      | removeFile path' =>
        cases complete
        all_goals
          cases hallowed
          cases heffect with
          | failed => exact h.unchanged hs (Or.inr ⟨rfl, hnot⟩)
          | removed =>
            exact h.dropTemporary hs hphase (fun p _ hp => put_ne _ hp _)
              (Or.inl ⟨rfl, put_ne _ hne.symm _⟩)
      | writeAll path' bytes' =>
        cases complete with
        | true => exact hallowed.elim
        | false =>
          obtain ⟨rfl, rfl⟩ := hallowed
          cases heffect with
          | failed => exact h.unchanged hs (Or.inl hphase.symm)
          | written => exact h.putTemporary hs hne hnew hnot halone fun _ => rfl
          | writtenInPart part => exact h.putTemporary hs hne hnew hnot halone fun heq => nomatch heq
      | rename source destination =>
        cases complete with
        | false => exact hallowed.elim
        | true =>
          obtain ⟨rfl, rfl⟩ := hallowed
          cases heffect with
          | failed => exact h.unchanged hs (Or.inl hphase.symm)
          | moved hsource =>
            cases hfile.symm.trans hsource
            refine h.dropTemporary hs hphase (fun p hp hp' => ?_) (Or.inr ⟨rfl, ?_⟩)
            · rw [put_ne _ hp, put_ne _ hp']
            · rw [put_self, hcomplete rfl]

end Interleaved

/--
**Concurrent writers of one file are atomic.**

Whatever the schedule and the failures are, at every step the destination holds its old file or
the whole file of one of the writers, and every other file that was there is as it was. Once a
writer has reported success, the destination holds the file of a writer; as long as none has
reported more than an error before the rename, it holds its old file.
-/
theorem concurrent_writers_atomic [DecidableEq ι] (path : Path) (bytes : ι → Bytes)
    (processId : ι → UInt32) (s : SharedFiles) (schedule : List ι) :
    let pool := Pool.run SharedFiles.serve schedule
      ⟨fun i => Writer.atomicWrite (processId i) path (bytes i), s⟩
    Whole s.disk.contents path bytes pool.state.disk.contents ∧
      (∃ steps, pool.state.disk.past = s.disk.past ++ steps ∧
        ∀ c ∈ steps, Whole s.disk.contents path bytes c) ∧
      (∀ i, pool.clients i = .done (.ok ()) →
        ∃ j, pool.state.disk.contents path = some (bytes j)) ∧
      ((∀ i, ∃ e, pool.clients i = .done (.error e) ∧ e ≠ syncDirectoryError) →
        pool.state.disk.contents path = s.disk.contents path) := by
  intro pool
  have hstart : Pool.Keeps (fun i => writing path (bytes i)) WritePhase.Reports
      (Interleaved s.disk.past s.disk.contents path bytes) (fun _ => .idle)
      ⟨fun i => Writer.atomicWrite (processId i) path (bytes i), s⟩ :=
    { follows := fun i => Writer.follows_atomicWrite (processId i) path (bytes i)
      inv :=
        { destination := Or.inl ⟨fun _ heq => (nomatch heq), rfl⟩
          others := fun _ _ _ h => h
          held := fun _ _ _ h => (nomatch h)
          alone := fun _ _ _ _ _ h => (nomatch h)
          passed := ⟨[], by simp, by simp⟩ } }
  have hserve : ∀ i phases op s', Interleaved s.disk.past s.disk.contents path bytes phases s' →
      (writing path (bytes i)).allowed (phases i) op →
      Interleaved s.disk.past s.disk.contents path bytes
        (Function.update phases i ((writing path (bytes i)).next (phases i) op
          (SharedFiles.serve op s').1)) (SharedFiles.serve op s').2 :=
    fun i phases op s' h hallowed => h.serve hallowed
  obtain ⟨phases, hend⟩ := Pool.run_invariant hserve schedule hstart
  have hinv : Interleaved s.disk.past s.disk.contents path bytes phases pool.state := hend.inv
  have hreports : ∀ i result, pool.clients i = .done result → (phases i).Reports result := by
    intro i result hdone
    have hfollows := hend.follows i
    rw [hdone] at hfollows
    exact hfollows
  refine ⟨hinv.whole, hinv.passed, fun i hi => ?_, fun hall => ?_⟩
  · rcases hinv.destination with ⟨hnone, _⟩ | ⟨j, _, hj⟩
    · exact absurd (hreports i _ hi) (hnone i)
    · exact ⟨j, hj⟩
  · rcases hinv.destination with ⟨_, hold⟩ | ⟨j, hj, _⟩
    · exact hold
    · obtain ⟨e, hdone, hne⟩ := hall j
      exact absurd ((hreports j _ hdone).mp hj) hne

end Interleaving

end Kanatoko
