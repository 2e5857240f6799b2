import Kanatoko.Lib.Fallible

/-!
# Files that can fail

A disk holds regular files and directories. Every request takes the next verdict of a stream
that is part of the disk, so a run over an arbitrary disk meets every pattern of success and
failure. A missing parent, a missing permission or a full disk is such a failure. Nothing
else writes to the disk during a run.
-/

namespace Disk

open Fallible

/-- A path, as its components. The empty path is the directory the process runs in. -/
abbrev Path := List String

/-- `Path::file_name`: the last component, when it names something. -/
def fileName (path : Path) : Option String :=
  match path.getLast? with
  | none => none
  | some name => if name = ".." ∨ name = "/" then none else some name

/-- The components of a relative path that is given as text. -/
def components (text : String) : Path :=
  ((text.toList.splitOnP fun ch => ch = '/').map String.ofList).filter fun name =>
    name ≠ "" ∧ name ≠ "."

/-- `Path::join`: an absolute path takes the place of the one before it. -/
def join (path : Path) (text : String) : Path :=
  if text.toList.head? = some '/' then "/" :: components text else path ++ components text

/-- Joining a text without a slash, which is a name, adds one component. -/
theorem join_name {path : Path} {text : String} (hslash : '/' ∉ text.toList)
    (hempty : text ≠ "") (hdot : text ≠ ".") : join path text = path ++ [text] := by
  have hsplit : text.toList.splitOnP (fun ch => ch = '/') = [text.toList] := by
    refine List.splitOnP_eq_singleton fun ch hch => decide_eq_false ?_
    rintro rfl
    exact hslash hch
  have hhead : text.toList.head? ≠ some '/' := fun h => hslash (List.mem_of_head? h)
  rw [join, if_neg hhead, components, hsplit]
  simp [hempty, hdot]

/-- `Path::parent`; empty when there is none. -/
def parent (path : Path) : Path := path.dropLast

theorem parent_append_fileName {path : Path} {name : String} (h : fileName path = some name) :
    parent path ++ [name] = path := by
  unfold fileName at h
  split at h
  · cases h
  · next last hlast =>
    split at h
    · cases h
    · cases h
      obtain ⟨init, rfl⟩ := List.getLast?_eq_some_iff.mp hlast
      rw [parent, List.dropLast_concat]

abbrev Contents := Path → Option (List UInt8)

/-- The answer to one request. A request that fails can have been carried out in part. -/
inductive Verdict where
  | done
  | failed (part : Nat)
  deriving DecidableEq, Repr

/-- `io::ErrorKind`, as far as the callers tell errors apart. -/
inductive FileError where
  | alreadyExists
  | other
  deriving DecidableEq, Repr

end Disk

structure Disk where
  contents : Disk.Contents
  directories : Disk.Path → Bool
  verdicts : Nat → Disk.Verdict
  /-- The contents that each request so far has left, oldest first. -/
  past : List Disk.Contents

namespace Disk

open Fallible

abbrev FileM := EStateM FileError Disk

/-- The verdict of the next request. -/
def verdict (d : Disk) : Verdict := d.verdicts 0

/-- The disk behind a request that has left these contents. -/
def after (d : Disk) (contents : Contents) : Disk :=
  { d with
    contents := contents
    verdicts := fun n => d.verdicts (n + 1)
    past := d.past ++ [contents] }

@[simp] theorem after_contents (d : Disk) (contents : Contents) :
    (d.after contents).contents = contents := rfl

/-- The contents with one file replaced or removed. -/
def put (contents : Contents) (path : Path) (file : Option (List UInt8)) : Contents :=
  fun p => if p = path then file else contents p

@[simp] theorem put_self (contents : Contents) (path : Path) (file : Option (List UInt8)) :
    put contents path file path = file := if_pos rfl

theorem put_ne (contents : Contents) {path p : Path} (h : p ≠ path)
    (file : Option (List UInt8)) : put contents path file p = contents p := if_neg h

theorem put_put (contents : Contents) (path : Path) (file file' : Option (List UInt8)) :
    put (put contents path file) path file' = put contents path file' := by
  funext p
  by_cases hp : p = path
  · rw [hp, put_self, put_self]
  · rw [put_ne _ hp, put_ne _ hp, put_ne _ hp]

/-! ## Requests -/

/-- `Path::exists`, which takes a failure for absence. -/
def pathExists (path : Path) : FileM Bool := fun d =>
  .ok (d.verdict = .done && ((d.contents path).isSome || d.directories path))
    (d.after d.contents)

/-- `fs::read`. -/
def read (path : Path) : FileM (List UInt8) := fun d =>
  match d.verdict, d.contents path with
  | .done, some bytes => .ok bytes (d.after d.contents)
  | _, _ => .error .other (d.after d.contents)

/-- `fs::create_dir_all`, which can fail with some of the directories made. -/
def createDirAll (path : Path) : FileM Unit := fun d =>
  let made (depth : Nat) : Disk :=
    { d.after d.contents with
      directories := fun p => d.directories p || (p.isPrefixOf path && decide (p.length ≤ depth)) }
  match d.verdict with
  | .failed depth => .error .other (made depth)
  | .done =>
    if path.inits.any (fun p => (d.contents p).isSome) then .error .other (d.after d.contents)
    else .ok () (made path.length)

/-- Opens a file for writing with `create_new`. It can fail for another reason where the name is
taken. -/
def createNew (path : Path) : FileM Unit := fun d =>
  match d.verdict with
  | .done =>
    if (d.contents path).isSome || d.directories path then
      .error .alreadyExists (d.after d.contents)
    else .ok () (d.after (put d.contents path (some [])))
  | .failed _ => .error .other (d.after d.contents)

/-- `write_all` on a file that was just created, which can fail with some of the bytes written. -/
def writeAll (path : Path) (bytes : List UInt8) : FileM Unit := fun d =>
  match d.verdict with
  | .done => .ok () (d.after (put d.contents path (some bytes)))
  | .failed part => .error .other (d.after (put d.contents path (some (bytes.take part))))

/-- A request that changes no file: opening a directory, `sync_all`. -/
def flush : FileM Unit := fun d =>
  match d.verdict with
  | .done => .ok () (d.after d.contents)
  | .failed _ => .error .other (d.after d.contents)

/-- `fs::rename` of a file over whatever file stands at the destination. -/
def rename (source destination : Path) : FileM Unit := fun d =>
  match d.verdict, d.contents source with
  | .done, some bytes =>
    if d.directories destination then .error .other (d.after d.contents)
    else .ok () (d.after (put (put d.contents source none) destination (some bytes)))
  | _, _ => .error .other (d.after d.contents)

/-- `fs::remove_file`. -/
def removeFile (path : Path) : FileM Unit := fun d =>
  match d.verdict, d.contents path with
  | .done, some _ => .ok () (d.after (put d.contents path none))
  | _, _ => .error .other (d.after d.contents)

/-! ## What a request leaves alone -/

/-- The disk a run ends with, however it ends. -/
def final {ε α : Type} : EStateM.Result ε Disk α → Disk
  | .ok _ d => d
  | .error _ d => d

theorem pathExists_keeps (path : Path) : Keeps contents (pathExists path) where
  ok := fun _ _ _ h => by cases h; rfl
  error := fun _ _ _ h => by cases h

theorem read_keeps (path : Path) : Keeps contents (read path) where
  ok := by
    intro d bytes d' h
    unfold read at h
    split at h <;> cases h
    rfl
  error := by
    intro d e d' h
    unfold read at h
    split at h <;> cases h
    rfl

theorem createDirAll_keeps (path : Path) : Keeps contents (createDirAll path) where
  ok := by
    intro d _ d' h
    unfold createDirAll at h
    dsimp only at h
    split at h
    · cases h
    · split at h <;> cases h
      rfl
  error := by
    intro d e d' h
    unfold createDirAll at h
    dsimp only at h
    split at h
    · cases h; rfl
    · split at h <;> cases h
      rfl

/-! ## What a request that succeeds has done -/

theorem read_eq_ok {path : Path} {bytes : List UInt8} {d d' : Disk}
    (h : read path d = .ok bytes d') : d.contents path = some bytes := by
  unfold read at h
  split at h
  · next hbytes =>
    cases h
    exact hbytes
  · cases h

theorem createNew_eq_ok {path : Path} {d d' : Disk} (h : createNew path d = .ok () d') :
    d.contents path = none ∧ d'.contents = put d.contents path (some []) := by
  unfold createNew at h
  split at h
  · split at h
    · cases h
    · next hfree =>
      cases h
      refine ⟨?_, rfl⟩
      by_contra hne
      exact hfree (by rw [Option.isSome_iff_ne_none.mpr hne]; rfl)
  · cases h

/-! ## What a run passes through -/

/-- A disk with the contents `c`. All that the requests since `past` have left is in `P`. -/
def At (past : List Contents) (P : Contents → Prop) (c : Contents) (d : Disk) : Prop :=
  d.contents = c ∧ ∃ steps, d.past = past ++ steps ∧ ∀ m ∈ steps, P m

section Passing

variable {past : List Contents} {P : Contents → Prop} {c c' : Contents}

theorem At.start (d : Disk) : At d.past P d.contents d := ⟨rfl, [], by simp, by simp⟩

theorem At.after {d : Disk} (h : At past P c d) (hc : P c') : At past P c' (d.after c') := by
  obtain ⟨_, steps, hpast, hsteps⟩ := h
  refine ⟨rfl, steps ++ [c'], ?_, ?_⟩
  · show d.past ++ [c'] = past ++ (steps ++ [c'])
    rw [hpast, List.append_assoc]
  · intro m hm
    rcases List.mem_append.mp hm with hm | hm
    · exact hsteps m hm
    · rw [List.mem_singleton.mp hm]
      exact hc

/-- A request that changes no file passes through the contents it finds. -/
theorem At.unchanged {d : Disk} (h : At past P c d) (hc : P c) :
    At past P c (d.after d.contents) := by
  rw [h.1]
  exact h.after hc

theorem createNew_triple {path : Path} (hc : P c)
    (hnew : c path = none → P (put c path (some []))) :
    Triple (At past P c) (createNew path)
      (fun _ d => c path = none ∧ At past P (put c path (some [])) d) (fun _ => At past P c) where
  ok := by
    intro d _ d' hd h
    have hfree := (createNew_eq_ok h).1
    rw [hd.1] at hfree
    refine ⟨hfree, ?_⟩
    unfold createNew at h
    split at h
    · split at h
      · cases h
      · cases h
        rw [hd.1]
        exact hd.after (hnew hfree)
    · cases h
  error := by
    intro d e d' hd h
    unfold createNew at h
    split at h
    · split at h
      · cases h
        exact hd.unchanged hc
      · cases h
    · cases h
      exact hd.unchanged hc

theorem writeAll_triple {path : Path} {bytes : List UInt8}
    (hput : ∀ file, P (put c path (some file))) :
    Triple (At past P c) (writeAll path bytes) (fun _ => At past P (put c path (some bytes)))
      (fun _ d => ∃ part, At past P (put c path (some part)) d) where
  ok := by
    intro d _ d' hd h
    unfold writeAll at h
    split at h
    · cases h
      rw [hd.1]
      exact hd.after (hput bytes)
    · cases h
  error := by
    intro d e d' hd h
    unfold writeAll at h
    split at h
    · cases h
    · next part _ =>
      cases h
      rw [hd.1]
      exact ⟨_, hd.after (hput (bytes.take part))⟩

theorem flush_triple (hc : P c) :
    Triple (At past P c) flush (fun _ => At past P c) (fun _ => At past P c) where
  ok := by
    intro d _ d' hd h
    unfold flush at h
    split at h
    · cases h
      exact hd.unchanged hc
    · cases h
  error := by
    intro d e d' hd h
    unfold flush at h
    split at h
    · cases h
    · cases h
      exact hd.unchanged hc

/-- A rename moves the whole file, or nothing. -/
theorem rename_triple {source destination : Path} {file : List UInt8} (hfile : c source = some file)
    (hc : P c) (hmoved : P (put (put c source none) destination (some file))) :
    Triple (At past P c) (rename source destination)
      (fun _ => At past P (put (put c source none) destination (some file)))
      (fun _ => At past P c) where
  ok := by
    intro d _ d' hd h
    unfold rename at h
    rw [hd.1, hfile] at h
    split at h
    · next heq =>
      cases heq
      split at h
      · cases h
      · cases h
        exact hd.after hmoved
    · cases h
  error := by
    intro d e d' hd h
    have hunchanged := hd.unchanged hc
    unfold rename at h
    split at h
    · split at h
      · cases h
        exact hunchanged
      · cases h
    · cases h
      exact hunchanged

/-- The last request was to remove the file, and it failed. -/
def RemovalFailed (path : Path) (d : Disk) : Prop :=
  ∃ before part, before.verdict = .failed part ∧ removeFile path before = .error .other d

/-- A file is removed, or the removal has failed. -/
theorem removeFile_final {path : Path} {file : List UInt8} {d : Disk} (h : At past P c d)
    (hfile : c path = some file) (hc : P c) (hremoved : P (put c path none)) :
    At past P (put c path none) (final (removeFile path d)) ∨
      At past P c (final (removeFile path d)) ∧ RemovalFailed path (final (removeFile path d)) := by
  have hhere : d.contents path = some file := by rw [h.1, hfile]
  cases hverdict : d.verdict with
  | done =>
    left
    simp only [removeFile, hverdict, hhere, final, h.1]
    exact h.after hremoved
  | failed part =>
    right
    have hremove : removeFile path d = .error .other (d.after d.contents) := by
      simp only [removeFile, hverdict]
    rw [hremove]
    exact ⟨h.unchanged hc, d, part, hverdict, hremove⟩

end Passing

end Disk
