import Kanatoko.Capture.Bundle
import Kanatoko.Capture.Replay
import Kanatoko.Testnet.Crates

/-!
# The native asset on testnet

The bundle in `fixtures/testnet/native-xlm-p29`: the contract instance of the native asset at
ledger 4983918, with two accounts and two other contracts that are known to be absent. The
transport answers with this ledger, and the scenario reads these five keys.
-/

namespace Kanatoko.Testnet

open Adaptive

def bytes32Of (bytes : Bytes) : Bytes32 := .ofFn fun i => bytes.getD i 0

/-! ## The ledger -/

def nativeAsset : ScAddress := .contract (bytes32Of [
    215, 146, 139, 114, 194, 112, 60, 207, 234, 247, 235, 159, 244, 239, 77, 80, 74, 85, 168, 185,
    121, 252, 155, 69, 14, 162, 200, 66, 180, 209, 206, 97])

/-- The contract address whose last byte is `n`. -/
def smallContract (n : UInt8) : ScAddress := .contract (bytes32Of (List.replicate 31 0 ++ [n]))

def firstAccount : AccountId := bytes32Of [
    78, 184, 39, 74, 13, 144, 160, 69, 162, 23, 8, 36, 106, 31, 214, 122, 227, 168, 162, 118, 240,
    224, 90, 3, 46, 151, 16, 104, 13, 127, 206, 122]

def secondAccount : AccountId := bytes32Of [
    93, 156, 153, 174, 104, 230, 74, 44, 178, 116, 103, 94, 139, 156, 5, 153, 40, 71, 76, 253, 90,
    184, 46, 119, 125, 124, 106, 67, 53, 238, 166, 117]

/-- The XDR of the metadata in the instance storage. -/
def nativeStorage : Bytes := [
    0, 0, 0, 2, 0, 0, 0, 15, 0, 0, 0, 8, 77, 69, 84, 65, 68, 65, 84, 65, 0, 0, 0, 17, 0, 0, 0, 1,
    0, 0, 0, 3, 0, 0, 0, 15, 0, 0, 0, 7, 100, 101, 99, 105, 109, 97, 108, 0, 0, 0, 0, 3, 0, 0, 0,
    7, 0, 0, 0, 15, 0, 0, 0, 4, 110, 97, 109, 101, 0, 0, 0, 14, 0, 0, 0, 6, 110, 97, 116, 105,
    118, 101, 0, 0, 0, 0, 0, 15, 0, 0, 0, 6, 115, 121, 109, 98, 111, 108, 0, 0, 0, 0, 0, 14, 0, 0,
    0, 6, 110, 97, 116, 105, 118, 101, 0, 0, 0, 0, 0, 16, 0, 0, 0, 1, 0, 0, 0, 1, 0, 0, 0, 15, 0,
    0, 0, 9, 65, 115, 115, 101, 116, 73, 110, 102, 111, 0, 0, 0, 0, 0, 0, 16, 0, 0, 0, 1, 0, 0, 0,
    1, 0, 0, 0, 15, 0, 0, 0, 6, 78, 97, 116, 105, 118, 101, 0, 0]

def nativeEntry : LedgerEntry where
  lastModifiedLedgerSeq := 4609662
  data := .contractData
    { contract := nativeAsset
      key := .ledgerKeyContractInstance
      durability := .persistent
      val := .contractInstance ⟨.stellarAsset, some nativeStorage⟩ }
  ext := .v0

/-- The keys the scenario reads. -/
def nativeKeys : List LedgerKey :=
  [contractInstanceKey nativeAsset, .account firstAccount, .account secondAccount,
    contractInstanceKey (smallContract 1), contractInstanceKey (smallContract 2)]

def testnetPassphrase : String := "Test SDF Network ; September 2015"

def nativeInfo : LedgerInfo where
  protocolVersion := 29
  sequenceNumber := 4983918
  timestamp := 1790943177
  networkId := bytes32Of [
    206, 224, 48, 45, 89, 132, 77, 50, 189, 202, 145, 92, 130, 3, 221, 68, 179, 63, 187, 126, 220,
    25, 5, 30, 163, 122, 190, 223, 40, 236, 212, 114]
  baseReserve := 5000000
  minPersistentEntryTtl := 120960
  minTempEntryTtl := 720
  maxEntryTtl := 3110400

/-! ## The bundle -/

def nativeBundle : CaptureBundleV2 where
  schemaVersion := 2
  ledgerSnapshot :=
    { nativeInfo with
      ledgerEntries := [(contractInstanceKey nativeAsset, (nativeEntry, some 7561567))] }
  knownAbsent :=
    ["AAAAAAAAAABOuCdKDZCgRaIXCCRqH9Z646iidvDgWgMulxBoDX/Oeg==",
      "AAAAAAAAAABdnJmuaOZKLLJ0Z16LnAWZKEdM/Vq4Lnd9fGpDNe6mdQ==",
      "AAAABgAAAAEAAAAAAAAAAAAAAAAAAAAAAAAAAAAAAAAAAAAAAAAAAQAAABQAAAAB",
      "AAAABgAAAAEAAAAAAAAAAAAAAAAAAAAAAAAAAAAAAAAAAAAAAAAAAgAAABQAAAAB"]
  report :=
    { discoveryRounds := 2
      presentEntries := 1
      absentEntries := 4
      finalReplayRpcReads := 0 }
  provenance :=
    { rpcOrigin := "https://soroban-testnet.stellar.org"
      networkPassphrase := testnetPassphrase
      ledgerSequence := 4983918
      ledgerHash := "cef7754b3c119c835fe69e9071ea0e1f1f4de26b854195e379c1dd5477f573b1"
      protocolVersion := 29 }
  ledgerDigest := "d28f50e6342075951ba9b082afc5e892eb42fc901ea0b44bfa7dc7cf55443c4a"
  inventoryDigest := "66c7b6670b560c5a64731db2b0c1d99705c0a46c01313676ad99319073219967"
  canonicalDigest := "3b72a2481bb1656a126c2a5c7216b8d9c2e3857fb07b6eaef592a71f04ee6145"

/-- JSON, as far as the bundle needs it. -/
inductive Json where
  | num (n : Nat)
  | str (s : String)
  | arr (items : List Json)
  | obj (fields : List (String × Json))

namespace Json

def newline (indent : Nat) : String := "\n" ++ String.ofList (List.replicate indent ' ')

mutual

/-- What `to_vec_pretty` writes, behind `indent` spaces. -/
def pretty (indent : Nat) : Json → String
  | num n => toString n
  | str s => "\"" ++ s ++ "\""
  | arr items => "[" ++ prettyItems (indent + 2) items ++ newline indent ++ "]"
  | obj fields => "\x7b" ++ prettyFields (indent + 2) fields ++ newline indent ++ "\x7d"

def prettyItems (indent : Nat) : List Json → String
  | [] => ""
  | [item] => newline indent ++ item.pretty indent
  | item :: rest => newline indent ++ item.pretty indent ++ "," ++ prettyItems indent rest

def prettyFields (indent : Nat) : List (String × Json) → String
  | [] => ""
  | [(name, field)] => newline indent ++ "\"" ++ name ++ "\": " ++ field.pretty indent
  | (name, field) :: rest =>
    newline indent ++ "\"" ++ name ++ "\": " ++ field.pretty indent ++ "," ++ prettyFields indent rest

end

end Json

/-- The bundle file of the fixture. -/
def nativeJson : Json :=
  .obj [
    ("schema_version", .num 2),
    ("ledger_snapshot", .obj [
      ("protocol_version", .num 29),
      ("sequence_number", .num 4983918),
      ("timestamp", .num 1790943177),
      ("network_id", .str "cee0302d59844d32bdca915c8203dd44b33fbb7edc19051ea37abedf28ecd472"),
      ("base_reserve", .num 5000000),
      ("min_persistent_entry_ttl", .num 120960),
      ("min_temp_entry_ttl", .num 720),
      ("max_entry_ttl", .num 3110400),
      ("ledger_entries", .arr [
        .obj [
          ("entry", .obj [
            ("last_modified_ledger_seq", .num 4609662),
            ("data", .obj [
              ("contract_data", .obj [
                ("ext", .str "v0"),
                ("contract", .str "CDLZFC3SYJYDZT7K67VZ75HPJVIEUVNIXF47ZG2FB2RMQQVU2HHGCYSC"),
                ("key", .str "ledger_key_contract_instance"),
                ("durability", .str "persistent"),
                ("val", .obj [
                  ("contract_instance", .obj [
                    ("executable", .str "stellar_asset"),
                    ("storage", .arr [
                      .obj [
                        ("key", .obj [("symbol", .str "METADATA")]),
                        ("val", .obj [
                          ("map", .arr [
                            .obj [
                              ("key", .obj [("symbol", .str "decimal")]),
                              ("val", .obj [("u32", .num 7)])],
                            .obj [
                              ("key", .obj [("symbol", .str "name")]),
                              ("val", .obj [("string", .str "native")])],
                            .obj [
                              ("key", .obj [("symbol", .str "symbol")]),
                              ("val", .obj [("string", .str "native")])]])])],
                      .obj [
                        ("key", .obj [
                          ("vec", .arr [
                            .obj [("symbol", .str "AssetInfo")]])]),
                        ("val", .obj [
                          ("vec", .arr [
                            .obj [("symbol", .str "Native")]])])]])])])])]),
            ("ext", .str "v0")]),
          ("live_until", .num 7561567)]])]),
    ("known_absent", .arr [
      .str "AAAAAAAAAABOuCdKDZCgRaIXCCRqH9Z646iidvDgWgMulxBoDX/Oeg==",
      .str "AAAAAAAAAABdnJmuaOZKLLJ0Z16LnAWZKEdM/Vq4Lnd9fGpDNe6mdQ==",
      .str "AAAABgAAAAEAAAAAAAAAAAAAAAAAAAAAAAAAAAAAAAAAAAAAAAAAAQAAABQAAAAB",
      .str "AAAABgAAAAEAAAAAAAAAAAAAAAAAAAAAAAAAAAAAAAAAAAAAAAAAAgAAABQAAAAB"]),
    ("report", .obj [
      ("discovery_rounds", .num 2),
      ("present_entries", .num 1),
      ("absent_entries", .num 4),
      ("final_replay_rpc_reads", .num 0)]),
    ("provenance", .obj [
      ("rpc_origin", .str "https://soroban-testnet.stellar.org"),
      ("network_passphrase", .str "Test SDF Network ; September 2015"),
      ("ledger_sequence", .num 4983918),
      ("ledger_hash", .str "cef7754b3c119c835fe69e9071ea0e1f1f4de26b854195e379c1dd5477f573b1"),
      ("protocol_version", .num 29)]),
    ("ledger_digest", .str "d28f50e6342075951ba9b082afc5e892eb42fc901ea0b44bfa7dc7cf55443c4a"),
    ("inventory_digest", .str "66c7b6670b560c5a64731db2b0c1d99705c0a46c01313676ad99319073219967"),
    ("canonical_digest", .str "3b72a2481bb1656a126c2a5c7216b8d9c2e3857fb07b6eaef592a71f04ee6145")]

def nativeFile : Bytes := asBytes (nativeJson.pretty 0)

scoped instance bundleCrates : BundleCrates where
  toVecPretty bundle := if bundle = nativeBundle then some nativeFile else none
  bundleVersionFromSlice bytes := if bytes = nativeFile then some 2 else none
  captureBundleFromSlice bytes := if bytes = nativeFile then some nativeBundle else none
  legacyBundleFromSlice _ := none
  addressFromStr _ := none

scoped instance lawfulBundleCrates : LawfulBundleCrates where
  captureBundleFromSlice_toVecPretty := by
    intro bundle bytes h
    change (if bundle = nativeBundle then some nativeFile else none) = some bytes at h
    split at h
    · next hb =>
      cases h
      exact hb ▸ if_pos rfl
    · cases h
  bundleVersionFromSlice_toVecPretty := by
    intro bundle bytes h
    change (if bundle = nativeBundle then some nativeFile else none) = some bytes at h
    split at h
    · next hb =>
      cases h
      exact hb ▸ if_pos rfl
    · cases h

/-! ## The transport and the scenario -/

def nativeAnchor : Anchor where
  sequence := 4983918
  hash := "cef7754b3c119c835fe69e9071ea0e1f1f4de26b854195e379c1dd5477f573b1"
  protocolVersion := 29
  timestamp := 1790943177
  baseReserve := 5000000

def nativeSettings : StateArchivalSettings where
  maxEntryTtl := 3110400
  minTemporaryTtl := 720
  minPersistentTtl := 120960

/-- What the ledger holds under a key. -/
def nativeLookup (key : LedgerKey) : Option FetchedEntry :=
  if key = contractInstanceKey nativeAsset then some ⟨nativeEntry, some 7561567⟩
  else if key = stateArchivalKey then
    some ⟨⟨4983000, .configSetting (.stateArchival nativeSettings), .v0⟩, none⟩
  else none

def nativeTransport : Transport Unit where
  network s := (.ok ⟨testnetPassphrase, 29⟩, s)
  latestLedger s := (.ok nativeAnchor, s)
  ledgerEntries keys s := (.ok ⟨nativeAnchor.sequence, keys.filterMap nativeLookup⟩, s)

def nativeWorld : World Unit := ⟨(), []⟩

/-- Reads the keys in order and ends with them stored. -/
def readAll : List LedgerKey → PassClient Unit
  | [] => .done ⟨some (), some nativeKeys⟩
  | key :: rest => .ask (.get key) fun _ => readAll rest

def nativeScenario : Scenario Unit := fun _ _ => readAll nativeKeys

def nativeBuilder : CaptureBuilder Unit where
  networkPassphrase := testnetPassphrase
  rpcOrigin := "https://soroban-testnet.stellar.org"
  transport := nativeTransport
  protocolPolicy := .exact
  coherenceAttempts := maxCoherenceAttempts
  discoveryRounds := maxDiscoveryRounds
  origin_redacted := by decide +kernel
  discoveryRounds_le := Nat.le_refl _

theorem readAll_allOps {P : SourceOp → Prop} : ∀ {keys : List LedgerKey},
    (∀ key ∈ keys, P (.get key)) → (readAll keys).AllOps P
  | [], _ => trivial
  | _ :: _, h => ⟨h _ List.mem_cons_self, fun _ =>
      readAll_allOps fun key hkey => h key (List.mem_cons_of_mem _ hkey)⟩

theorem readAll_allResults {P : PassEnd Unit → Prop} (h : P ⟨some (), some nativeKeys⟩) :
    ∀ {keys : List LedgerKey}, (readAll keys).AllResults P
  | [] => h
  | _ :: _ => fun _ => readAll_allResults h

/-- What holds of the one end of the scenario holds of all its ends. -/
theorem nativeScenario_allResults {P : PassEnd Unit → Prop} (h : P ⟨some (), some nativeKeys⟩)
    (env : Env) (protocol : UInt32) : (nativeScenario env protocol).AllResults P :=
  readAll_allResults h

theorem nativeScenario_storesSupported : StoresSupported nativeScenario :=
  nativeScenario_allResults fun stored h key hkey => by
    cases h
    simp only [nativeKeys, List.mem_cons, List.not_mem_nil, or_false] at hkey
    rcases hkey with rfl | rfl | rfl | rfl | rfl <;> trivial

/-- The capture of the scenario is the fixture, digest by digest. -/
theorem native_captured : ∃ f w',
    nativeBuilder.captureRefFromKeys nativeScenario .empty nativeWorld = .ok f w' ∧
      f.toBundle = .ok nativeBundle := by
  have h : (match nativeBuilder.captureRefFromKeys nativeScenario .empty nativeWorld with
    | .ok f _ => decide (f.toBundle.toOption = some nativeBundle)
    | .error _ _ => false) = true := by decide +kernel
  split at h
  · next f w' hcapture =>
    have hbundle := of_decide_eq_true h
    refine ⟨f, w', hcapture, ?_⟩
    cases hf : f.toBundle with
    | ok bundle => rw [hf] at hbundle; cases hbundle; rfl
    | error e => rw [hf] at hbundle; cases hbundle
  · cases h

end Kanatoko.Testnet
