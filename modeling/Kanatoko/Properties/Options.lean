import Kanatoko.Properties.RoundTrip
import Kanatoko.Tools.Options

/-!
# What the command line accepts

The options of either command are few, and each has one or two spellings. The accepted command
lines are what these spell, in any order and number.
-/

namespace Kanatoko.Cli

open Fallible CommandLine Workflow

/-! ## Hashes and formats -/

/-- **A hash is accepted in its canonical spelling only.** -/
theorem parseHash_eq_ok {value : String} {hash : Bytes32} :
    parseHash value = .ok hash ↔ value = hex hash.toList := by
  have hsame : (parseHash value).toOption = (decodeHexDigest value).toOption := by
    unfold parseHash decodeHexDigest
    by_cases hshape : strLen value = 64 ∧ ∀ c ∈ value.toList, c.toNat < 128
    · rw [ensure, ensure, if_pos hshape, if_pos hshape]
      show ((decodeHexPairs value.toList).mapError _ >>= _).toOption
        = ((decodeHexPairs value.toList) >>= _).toOption
      cases decodeHexPairs value.toList with
      | error e => rfl
      | ok bytes =>
        show (orError _ (bytes32? bytes) >>= _).toOption = (orError _ (bytes32? bytes) >>= _).toOption
        cases bytes32? bytes with
        | none => rfl
        | some hash =>
          show ((ensure _ _ : Except String _) >>= _).toOption = (ensure _ _ >>= _).toOption
          unfold ensure
          split
          · rfl
          · rfl
    · rw [ensure, ensure, if_neg hshape, if_neg hshape]
      rfl
  constructor
  · intro h
    rw [h] at hsame
    cases hdecode : decodeHexDigest value with
    | ok digest =>
      rw [hdecode] at hsame
      cases hsame
      exact (hex_of_decodeHexDigest hdecode).symm
    | error e => rw [hdecode] at hsame; cases hsame
  · rintro rfl
    rw [decodeHexDigest_hex] at hsame
    cases hparse : parseHash (hex hash.toList) with
    | ok hash' => rw [hparse] at hsame; cases hsame; rfl
    | error e => rw [hparse] at hsame; cases hsame

def OutputFormat.spelling : OutputFormat → String
  | .text => "text"
  | .json => "json"

theorem parseFormat_eq_ok {value : String} {format : OutputFormat} :
    parseFormat value = .ok format ↔ value = format.spelling := by
  unfold parseFormat
  split
  · cases format <;> simp [OutputFormat.spelling, pure, Except.pure]
  · cases format <;> simp [OutputFormat.spelling, pure, Except.pure]
  · next hjson htext =>
    refine ⟨fun h => absurd h throw_ne_ok, fun h => ?_⟩
    cases format with
    | text => exact absurd h htext
    | json => exact absurd h hjson

/-! ## The options -/

inductive CaptureOption where
  | rpcUrl (url : String)
  | bundle (path : String)
  | allowNewerProtocol

namespace CaptureOption

def render : CaptureOption → List String
  | rpcUrl url => ["--rpc-url", url]
  | bundle path => ["--bundle", path]
  | allowNewerProtocol => ["--allow-newer-protocol"]

def apply : CaptureOption → CaptureOptions → CaptureOptions
  | rpcUrl url, given => { given with rpcUrl := url }
  | bundle path, given => { given with bundle := path }
  | allowNewerProtocol, given => { given with allowNewerProtocol := true }

def rpcUrl? : CaptureOption → Option String
  | rpcUrl url => some url
  | _ => none

def bundle? : CaptureOption → Option String
  | bundle path => some path
  | _ => none

def allowNewerProtocol? : CaptureOption → Option Bool
  | allowNewerProtocol => some true
  | _ => none

theorem grammar : Grammar captureTable render apply where
  reads a args s := by
    cases a with
    | rpcUrl url => exact read_value (by simp [captureTable]; rfl) rfl args
    | bundle path => exact read_value (by simp [captureTable]; rfl) rfl args
    | allowNewerProtocol => exact read_switch (by simp [captureTable]; rfl) args s
  covers name args s s' h := by
    rcases cases_of_read h with ⟨set, hlookup⟩ | ⟨set, text, rest, _, hlookup, rfl, _⟩
    · unfold captureTable at hlookup
      dsimp only at hlookup
      split at hlookup
      · cases hlookup
      split at hlookup
      · cases hlookup
      split at hlookup
      · next hname => exact ⟨.allowNewerProtocol, args, by rw [hname]; rfl, Nat.le_refl _⟩
      · cases hlookup
    · unfold captureTable at hlookup
      dsimp only at hlookup
      split at hlookup
      · next hname => exact ⟨.rpcUrl text, rest, by rw [hname]; rfl, Nat.le_succ _⟩
      split at hlookup
      · next hname => exact ⟨.bundle text, rest, by rw [hname]; rfl, Nat.le_succ _⟩
      split at hlookup
      · cases hlookup
      · cases hlookup

end CaptureOption

inductive RunOption where
  /-- Under either of its names. -/
  | fixture (bundle : Bool) (path : String)
  | candidateWasm (path : String)
  | candidateSha256 (hash : Bytes32)
  | format (value : OutputFormat)
  | allowNewerProtocol

namespace RunOption

def render : RunOption → List String
  | fixture bundle path => [if bundle then "--bundle" else "--fixture", path]
  | candidateWasm path => ["--candidate-wasm", path]
  | candidateSha256 hash => ["--candidate-sha256", hex hash.toList]
  | format value => ["--format", value.spelling]
  | allowNewerProtocol => ["--allow-newer-protocol"]

def apply : RunOption → RunOptions → RunOptions
  | fixture _ path, given => { given with fixture := path }
  | candidateWasm path, given => { given with candidatePath := some path }
  | candidateSha256 hash, given => { given with candidateHash := some hash }
  | format value, given => { given with format := value }
  | allowNewerProtocol, given => { given with allowNewerProtocol := true }

def fixture? : RunOption → Option String
  | fixture _ path => some path
  | _ => none

def candidateWasm? : RunOption → Option (Option String)
  | candidateWasm path => some path
  | _ => none

def candidateSha256? : RunOption → Option (Option Bytes32)
  | candidateSha256 hash => some hash
  | _ => none

def format? : RunOption → Option OutputFormat
  | format value => some value
  | _ => none

def allowNewerProtocol? : RunOption → Option Bool
  | allowNewerProtocol => some true
  | _ => none

theorem grammar : Grammar runTable render apply where
  reads a args s := by
    cases a with
    | fixture bundle path =>
      cases bundle
      · exact read_value (by simp [runTable]; rfl) rfl args
      · exact read_value (by simp [runTable]; rfl) rfl args
    | candidateWasm path => exact read_value (by simp [runTable]; rfl) rfl args
    | candidateSha256 hash =>
      refine read_value (by simp [runTable]; rfl) ?_ args
      exact bind_eq_ok.mpr ⟨hash, parseHash_eq_ok.mpr rfl, rfl⟩
    | format format =>
      refine read_value (by simp [runTable]; rfl) ?_ args
      exact bind_eq_ok.mpr ⟨format, parseFormat_eq_ok.mpr rfl, rfl⟩
    | allowNewerProtocol => exact read_switch (by simp [runTable]; rfl) args s
  covers name args s s' h := by
    rcases cases_of_read h with ⟨set, hlookup⟩ | ⟨set, text, rest, _, hlookup, rfl, hset⟩
    · unfold runTable at hlookup
      dsimp only at hlookup
      split at hlookup
      · next hname => exact ⟨.allowNewerProtocol, args, by rw [hname]; rfl, Nat.le_refl _⟩
      split at hlookup
      · cases hlookup
      split at hlookup
      · cases hlookup
      split at hlookup
      · cases hlookup
      split at hlookup
      · cases hlookup
      · cases hlookup
    · unfold runTable at hlookup
      dsimp only at hlookup
      split at hlookup
      · cases hlookup
      split at hlookup
      · next hname =>
        rcases hname with rfl | rfl
        · exact ⟨.fixture false text, rest, rfl, Nat.le_succ _⟩
        · exact ⟨.fixture true text, rest, rfl, Nat.le_succ _⟩
      split at hlookup
      · next hname => exact ⟨.candidateWasm text, rest, by rw [hname]; rfl, Nat.le_succ _⟩
      split at hlookup
      · next hname =>
        cases hlookup
        obtain ⟨hash, hhash, _⟩ := bind_eq_ok.mp hset
        refine ⟨.candidateSha256 hash, rest, ?_, Nat.le_succ _⟩
        rw [hname, parseHash_eq_ok.mp hhash]
        rfl
      split at hlookup
      · next hname =>
        cases hlookup
        obtain ⟨format, hformat, _⟩ := bind_eq_ok.mp hset
        refine ⟨.format format, rest, ?_, Nat.le_succ _⟩
        rw [hname, parseFormat_eq_ok.mp hformat]
        rfl
      · cases hlookup

end RunOption

/-! ## Command lines -/

/-- The accepted command lines. The last of several options for one field is the one that counts. -/
inductive Accepted : List String → Options → Prop
  | nothing : Accepted [] .help
  | help {command : String} {args : List String} : command ∈ helpCommands →
      Accepted (command :: args) .help
  | capture (given : List CaptureOption) :
      Accepted ("capture" :: "aquarius-cp" :: given.flatMap CaptureOption.render)
        (.capture (lastOf CaptureOption.rpcUrl? given defaultRpcUrl)
          (lastOf CaptureOption.bundle? given defaultBundle)
          (lastOf CaptureOption.allowNewerProtocol? given false))
  | run (given : List RunOption) {candidate : CandidateArtifact} :
      candidateOf (lastOf RunOption.candidateWasm? given none)
        (lastOf RunOption.candidateSha256? given none) = .ok candidate →
      Accepted ("run" :: "aquarius-cp" :: given.flatMap RunOption.render)
        (.run (lastOf RunOption.fixture? given defaultBundle) candidate
          (lastOf RunOption.format? given .text)
          (lastOf RunOption.allowNewerProtocol? given false))

/-- The options that spell a capture. -/
def CaptureOption.spell (rpcUrl bundle : String) (allow : Bool) : List CaptureOption :=
  [.rpcUrl rpcUrl, .bundle bundle] ++ if allow then [.allowNewerProtocol] else []

/-- The options that spell a run. -/
def RunOption.spell (fixture : String) (candidate : CandidateArtifact) (format : OutputFormat)
    (allow : Bool) : List RunOption :=
  (match candidate with
    | .bundled => []
    | .file path sha256 => [.candidateWasm path, .candidateSha256 sha256]) ++
    [.fixture false fixture, .format format] ++ if allow then [.allowNewerProtocol] else []

/-- A command line for some options. -/
def Options.render : Options → List String
  | help => ["help"]
  | capture rpcUrl bundle allow => "capture" :: "aquarius-cp" ::
      (CaptureOption.spell rpcUrl bundle allow).flatMap CaptureOption.render
  | run fixture candidate format allow => "run" :: "aquarius-cp" ::
      (RunOption.spell fixture candidate format allow).flatMap RunOption.render

theorem accepted_render (options : Options) : Accepted options.render options := by
  cases options with
  | help => exact .help List.mem_cons_self
  | capture rpcUrl bundle allow =>
    cases allow <;> exact .capture (CaptureOption.spell rpcUrl bundle _)
  | run fixture candidate format allow =>
    cases candidate with
    | bundled => cases allow <;> exact .run (RunOption.spell fixture .bundled format _) rfl
    | file path sha256 =>
      cases allow <;> exact .run (RunOption.spell fixture (.file path sha256) format _) rfl

theorem mem_helpCommands {command : String} (h : command = "capture" ∨ command = "run") :
    command ∉ helpCommands := by
  rcases h with rfl | rfl <;> decide

theorem parse_capture (args : List String) : parse ("capture" :: "aquarius-cp" :: args) = (do
    let given ← read captureTable args {}
    pure (.capture given.rpcUrl given.bundle given.allowNewerProtocol)) := by
  rw [parse, if_neg (mem_helpCommands (Or.inl rfl))]
  rfl

theorem parse_run (args : List String) : parse ("run" :: "aquarius-cp" :: args) = (do
    let given ← read runTable args {}
    let candidate ← candidateOf given.candidatePath given.candidateHash
    pure (.run given.fixture candidate given.format given.allowNewerProtocol)) := by
  rw [parse, if_neg (mem_helpCommands (Or.inr rfl))]
  rfl

/-- A command line that is accepted asks for help, or is for one of the two commands. -/
theorem cases_of_parse {args : List String} {options : Options} (h : parse args = .ok options) :
    (args = [] ∧ options = .help) ∨
      (∃ command rest, args = command :: rest ∧ command ∈ helpCommands ∧ options = .help) ∨
      (∃ rest, args = "capture" :: "aquarius-cp" :: rest) ∨
      ∃ rest, args = "run" :: "aquarius-cp" :: rest := by
  cases args with
  | nil => exact Or.inl ⟨rfl, (pure_eq_ok.mp h).symm⟩
  | cons command rest =>
    change (if command ∈ helpCommands then _ else _) = _ at h
    split at h
    · next hhelp => exact Or.inr (Or.inl ⟨command, rest, rfl, hhelp, (pure_eq_ok.mp h).symm⟩)
    · cases rest with
      | nil => exact absurd h throw_ne_ok
      | cons scenario rest =>
        obtain ⟨_, hscenario, h₁⟩ := bind_eq_ok.mp h
        obtain rfl := ensure_eq_ok.mp hscenario
        split at h₁
        · next hcapture => exact Or.inr (Or.inr (Or.inl ⟨rest, by rw [hcapture]⟩))
        split at h₁
        · next hrun => exact Or.inr (Or.inr (Or.inr ⟨rest, by rw [hrun]⟩))
        · exact absurd h₁ throw_ne_ok

/-- The fields behind the options of a capture. -/
theorem CaptureOption.applyAll_eq (given : List CaptureOption) (s : CaptureOptions) :
    applyAll apply given s =
      { rpcUrl := lastOf rpcUrl? given s.rpcUrl
        bundle := lastOf bundle? given s.bundle
        allowNewerProtocol := lastOf allowNewerProtocol? given s.allowNewerProtocol } := by
  have hrpcUrl : (applyAll apply given s).rpcUrl = lastOf rpcUrl? given s.rpcUrl :=
    get_applyAll (fun a _ => by cases a <;> rfl) given s
  have hbundle : (applyAll apply given s).bundle = lastOf bundle? given s.bundle :=
    get_applyAll (fun a _ => by cases a <;> rfl) given s
  have hallow : (applyAll apply given s).allowNewerProtocol = lastOf allowNewerProtocol? given s.allowNewerProtocol :=
    get_applyAll (fun a _ => by cases a <;> rfl) given s
  rw [← hrpcUrl, ← hbundle, ← hallow]

/-- The fields behind the options of a run. -/
theorem RunOption.applyAll_eq (given : List RunOption) (s : RunOptions) :
    applyAll apply given s =
      { fixture := lastOf fixture? given s.fixture
        candidatePath := lastOf candidateWasm? given s.candidatePath
        candidateHash := lastOf candidateSha256? given s.candidateHash
        format := lastOf format? given s.format
        allowNewerProtocol := lastOf allowNewerProtocol? given s.allowNewerProtocol } := by
  have hfixture : (applyAll apply given s).fixture = lastOf fixture? given s.fixture :=
    get_applyAll (fun a _ => by cases a <;> rfl) given s
  have hpath : (applyAll apply given s).candidatePath = lastOf candidateWasm? given s.candidatePath :=
    get_applyAll (fun a _ => by cases a <;> rfl) given s
  have hhash : (applyAll apply given s).candidateHash = lastOf candidateSha256? given s.candidateHash :=
    get_applyAll (fun a _ => by cases a <;> rfl) given s
  have hformat : (applyAll apply given s).format = lastOf format? given s.format :=
    get_applyAll (fun a _ => by cases a <;> rfl) given s
  have hallow : (applyAll apply given s).allowNewerProtocol = lastOf allowNewerProtocol? given s.allowNewerProtocol :=
    get_applyAll (fun a _ => by cases a <;> rfl) given s
  rw [← hfixture, ← hpath, ← hhash, ← hformat, ← hallow]

theorem accepted_of_parse {args : List String} {options : Options} (h : parse args = .ok options) :
    Accepted args options := by
  rcases cases_of_parse h with ⟨rfl, rfl⟩ | ⟨command, rest, rfl, hhelp, rfl⟩ | ⟨rest, rfl⟩ |
    ⟨rest, rfl⟩
  · exact .nothing
  · exact .help hhelp
  · rw [parse_capture] at h
    obtain ⟨given, hread, hpure⟩ := bind_eq_ok.mp h
    obtain ⟨list, rfl, rfl⟩ := CaptureOption.grammar.read_iff.mp hread
    cases pure_eq_ok.mp hpure
    rw [CaptureOption.applyAll_eq]
    exact .capture list
  · rw [parse_run] at h
    obtain ⟨given, hread, h₁⟩ := bind_eq_ok.mp h
    obtain ⟨list, rfl, rfl⟩ := RunOption.grammar.read_iff.mp hread
    rw [RunOption.applyAll_eq] at h₁
    obtain ⟨candidate, hcandidate, hpure⟩ := bind_eq_ok.mp h₁
    cases pure_eq_ok.mp hpure
    exact .run list hcandidate

theorem parse_of_accepted {args : List String} {options : Options} (h : Accepted args options) :
    parse args = .ok options := by
  cases h with
  | nothing => rfl
  | help hhelp => exact if_pos hhelp
  | capture given =>
    rw [parse_capture, CaptureOption.grammar.read_render, CaptureOption.applyAll_eq]
    rfl
  | run given hcandidate =>
    rw [parse_run, RunOption.grammar.read_render, RunOption.applyAll_eq]
    exact bind_eq_ok.mpr ⟨_, rfl, bind_eq_ok.mpr ⟨_, hcandidate, rfl⟩⟩

/--
**The accepted command lines are the spelled options.**

A command line that is accepted asks for help, or spells options of its command one after the
other: each field is what the last option for it says, a hash is in its canonical spelling, and a
custom candidate has both its path and its hash. Anything else is refused. Every combination of
options has a command line.
-/
theorem parse_iff_accepted : (∀ args options, parse args = .ok options ↔ Accepted args options) ∧
    ∀ options : Options, parse options.render = .ok options :=
  ⟨fun _ _ => ⟨accepted_of_parse, parse_of_accepted⟩,
    fun options => parse_of_accepted (accepted_render options)⟩

end Kanatoko.Cli
