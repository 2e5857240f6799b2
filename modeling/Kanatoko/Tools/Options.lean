import Kanatoko.Lib.CommandLine
import Kanatoko.Tools.Workflow

/-!
# The command line

`Options::parse` of `tools/kanatoko.rs`, behind the name of the program. Its errors are kept as
the texts that are printed.
-/

namespace Kanatoko.Cli

open Fallible CommandLine Workflow

def defaultRpcUrl : String := "https://mainnet.sorobanrpc.com"

def defaultBundle : String := "fixtures/mainnet/aquarius-xlm-usdc-cp/capture.json"

inductive OutputFormat where
  | text
  | json
  deriving DecidableEq

inductive Options where
  | help
  | capture (rpcUrl bundle : String) (allowNewerProtocol : Bool)
  | run (fixture : String) (candidate : CandidateArtifact) (format : OutputFormat)
      (allowNewerProtocol : Bool)
  deriving DecidableEq

/-- `next`, when there is no argument left. -/
def needsValue (option : String) : String := option ++ " needs a value"

/-- `parse_hash`. Its `hex_nibble` is `decode_hex_nibble` with a text of its own. -/
def parseHash (value : String) : Except String Bytes32 := do
  ensure (strLen value = 64 ∧ ∀ c ∈ value.toList, c.toNat < 128)
    "SHA-256 must be 64 lowercase hex characters"
  let bytes ← (decodeHexPairs value.toList).mapError fun _ => "invalid lowercase hex"
  -- there are 32 bytes in 64 characters
  let hash ← orError "SHA-256 must be 64 lowercase hex characters" (bytes32? bytes)
  ensure (hex hash.toList = value) "SHA-256 must be canonical lowercase hex"
  pure hash

def parseFormat : String → Except String OutputFormat
  | "json" => pure .json
  | "text" => pure .text
  | value => throw ("unsupported format: " ++ value)

/-! ## The two loops -/

structure CaptureOptions where
  rpcUrl : String := defaultRpcUrl
  bundle : String := defaultBundle
  allowNewerProtocol : Bool := false

def captureTable : Table String CaptureOptions where
  lookup option :=
    if option = "--rpc-url" then
      pure (.value fun value given => pure { given with rpcUrl := value })
    else if option = "--bundle" then
      pure (.value fun value given => pure { given with bundle := value })
    else if option = "--allow-newer-protocol" then
      pure (.switch fun given => { given with allowNewerProtocol := true })
    else throw ("unknown capture option: " ++ option)
  missing := needsValue

structure RunOptions where
  fixture : String := defaultBundle
  candidatePath : Option String := none
  candidateHash : Option Bytes32 := none
  format : OutputFormat := .text
  allowNewerProtocol : Bool := false

def runTable : Table String RunOptions where
  lookup option :=
    if option = "--allow-newer-protocol" then
      pure (.switch fun given => { given with allowNewerProtocol := true })
    else if option = "--fixture" ∨ option = "--bundle" then
      pure (.value fun value given => pure { given with fixture := value })
    else if option = "--candidate-wasm" then
      pure (.value fun value given => pure { given with candidatePath := some value })
    else if option = "--candidate-sha256" then
      pure (.value fun value given => do
        let hash ← parseHash value
        pure { given with candidateHash := some hash })
    else if option = "--format" then
      pure (.value fun value given => do
        let format ← parseFormat value
        pure { given with format := format })
    else throw ("unknown run option: " ++ option)
  missing := needsValue

def candidateOf : Option String → Option Bytes32 → Except String CandidateArtifact
  | none, none => pure .bundled
  | some path, some sha256 => pure (.file path sha256)
  | _, _ => throw "custom candidate requires both --candidate-wasm and --candidate-sha256"

/-! ## Commands -/

def helpCommands : List String := ["help", "--help", "-h"]

def parse : List String → Except String Options
  | [] => pure .help
  | command :: args =>
    if command ∈ helpCommands then pure .help
    else
      match args with
      | [] => throw "expected scenario name aquarius-cp"
      | scenario :: args => do
        ensure (scenario = "aquarius-cp") ("unsupported scenario: " ++ scenario)
        if command = "capture" then do
          let given ← read captureTable args {}
          pure (.capture given.rpcUrl given.bundle given.allowNewerProtocol)
        else if command = "run" then do
          let given ← read runTable args {}
          let candidate ← candidateOf given.candidatePath given.candidateHash
          pure (.run given.fixture candidate given.format given.allowNewerProtocol)
        else throw ("unknown command: " ++ command)

end Kanatoko.Cli
