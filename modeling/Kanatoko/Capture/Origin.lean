import Kanatoko.Errors

/-!
# The RPC origin

`redact_rpc_origin` keeps the scheme and the host of an RPC URL. Strings are handled as
lists of characters.
-/

namespace Kanatoko

open Fallible

/-- Splits at the first occurrence of a non-empty pattern: `str::split_once`. -/
def splitOnce (pattern : List Char) : List Char → Option (List Char × List Char)
  | [] => none
  | c :: rest =>
    if pattern.isPrefixOf (c :: rest) then some ([], (c :: rest).drop pattern.length)
    else (splitOnce pattern rest).map fun parts => (c :: parts.1, parts.2)

/-- Splits at the last occurrence of a character: `str::rsplit_once`. -/
def rsplitOnce (sep : Char) : List Char → Option (List Char × List Char)
  | [] => none
  | c :: rest =>
    match rsplitOnce sep rest with
    | some parts => some (c :: parts.1, parts.2)
    | none => if c = sep then some ([], rest) else none

/-- The characters that end the authority of a URL. -/
def endsAuthority (c : Char) : Bool := c == '/' || c == '?' || c == '#'

/-- The part of an authority behind the userinfo. -/
def hostOf (authority : List Char) : List Char :=
  match rsplitOnce '@' authority with
  | some parts => parts.2
  | none => authority

def isHttpScheme (scheme : List Char) : Bool :=
  scheme == ['h', 't', 't', 'p'] || scheme == ['h', 't', 't', 'p', 's']

/-- What stands between the scheme and the authority. -/
def schemeEnd : List Char := [':', '/', '/']

def originChars (scheme host : List Char) : List Char := scheme ++ schemeEnd ++ host

def redactRpcOrigin (raw : String) : Except CaptureError String := do
  let (scheme, remainder) ← orError .invalidRpcUrl (splitOnce schemeEnd raw.toList)
  ensure (isHttpScheme scheme = true) .invalidRpcUrl
  let authority := remainder.takeWhile (fun c => !endsAuthority c)
  ensure (authority ≠ []) .invalidRpcUrl
  let host := hostOf authority
  ensure (host ≠ []) .invalidRpcUrl
  pure (String.ofList (originChars scheme host))

/-! ## What a redacted origin looks like -/

theorem rsplitOnce_eq_none_iff {sep : Char} : ∀ {l : List Char},
    rsplitOnce sep l = none ↔ sep ∉ l
  | [] => by simp [rsplitOnce]
  | c :: rest => by
    have ih : rsplitOnce sep rest = none ↔ sep ∉ rest := rsplitOnce_eq_none_iff
    rw [rsplitOnce, List.mem_cons, not_or]
    cases h : rsplitOnce sep rest with
    | some parts =>
      have hmem : sep ∈ rest := by
        by_contra hn
        rw [ih.mpr hn] at h
        exact absurd h (by simp)
      simp [hmem]
    | none =>
      have hmem : sep ∉ rest := ih.mp h
      by_cases hc : c = sep
      · simp [hc]
      · simp [hc, hmem, Ne.symm hc]

/-- What stands behind the last separator contains no separator, and comes from the string. -/
theorem rsplitOnce_right {sep : Char} : ∀ {l : List Char} {parts : List Char × List Char},
    rsplitOnce sep l = some parts → sep ∉ parts.2 ∧ ∀ c ∈ parts.2, c ∈ l
  | [], _, h => by simp [rsplitOnce] at h
  | c :: rest, parts, h => by
    rw [rsplitOnce] at h
    cases hr : rsplitOnce sep rest with
    | some inner =>
      rw [hr] at h
      obtain ⟨hn, hsub⟩ := rsplitOnce_right hr
      cases h
      exact ⟨hn, fun d hd => List.mem_cons_of_mem _ (hsub d hd)⟩
    | none =>
      rw [hr] at h
      simp only at h
      split at h
      · cases h
        exact ⟨rsplitOnce_eq_none_iff.mp hr, fun d hd => List.mem_cons_of_mem _ hd⟩
      · exact absurd h (by simp)

theorem hostOf_notMem (authority : List Char) : '@' ∉ hostOf authority := by
  unfold hostOf
  cases h : rsplitOnce '@' authority with
  | some parts => exact (rsplitOnce_right h).1
  | none => exact rsplitOnce_eq_none_iff.mp h

theorem hostOf_subset {authority : List Char} {c : Char} (hc : c ∈ hostOf authority) :
    c ∈ authority := by
  unfold hostOf at hc
  cases h : rsplitOnce '@' authority with
  | some parts => rw [h] at hc; exact (rsplitOnce_right h).2 c hc
  | none => rw [h] at hc; exact hc

/-- A non-empty host without any delimiter. -/
structure PlainHost (host : List Char) : Prop where
  ne_nil : host ≠ []
  noUserinfo : '@' ∉ host
  noDelimiter : ∀ c ∈ host, endsAuthority c = false

theorem splitOnce_scheme {scheme host : List Char} (hs : isHttpScheme scheme = true) :
    splitOnce schemeEnd (originChars scheme host) = some (scheme, host) := by
  simp only [isHttpScheme, Bool.or_eq_true, beq_iff_eq] at hs
  rcases hs with rfl | rfl <;>
    simp [originChars, schemeEnd, splitOnce, List.isPrefixOf]

theorem PlainHost.takeWhile {host : List Char} (h : PlainHost host) :
    host.takeWhile (fun c => !endsAuthority c) = host := by
  rw [List.takeWhile_eq_self_iff]
  intro c hc
  simp [h.noDelimiter c hc]

theorem PlainHost.hostOf {host : List Char} (h : PlainHost host) : hostOf host = host := by
  unfold Kanatoko.hostOf
  rw [rsplitOnce_eq_none_iff.mpr h.noUserinfo]

/-- A plain origin is its own redaction. -/
theorem redactRpcOrigin_plain {scheme host : List Char} (hs : isHttpScheme scheme = true)
    (h : PlainHost host) :
    redactRpcOrigin (String.ofList (originChars scheme host))
      = .ok (String.ofList (originChars scheme host)) := by
  unfold redactRpcOrigin
  rw [String.toList_ofList, splitOnce_scheme hs]
  refine bind_eq_ok.mpr ⟨(scheme, host), by simp, ?_⟩
  simp only [h.takeWhile, h.hostOf]
  exact bind_eq_ok.mpr ⟨⟨⟩, ensure_eq_ok.mpr hs,
    bind_eq_ok.mpr ⟨⟨⟩, ensure_eq_ok.mpr h.ne_nil,
      bind_eq_ok.mpr ⟨⟨⟩, ensure_eq_ok.mpr h.ne_nil, rfl⟩⟩⟩

/-- Every redaction is a plain origin. -/
theorem redactRpcOrigin_eq_ok {raw origin : String} (h : redactRpcOrigin raw = .ok origin) :
    ∃ scheme host, isHttpScheme scheme = true ∧ PlainHost host ∧
      origin = String.ofList (originChars scheme host) := by
  unfold redactRpcOrigin at h
  obtain ⟨⟨scheme, remainder⟩, _, h⟩ := bind_eq_ok.mp h
  obtain ⟨_, hs, h⟩ := bind_eq_ok.mp h
  obtain ⟨_, _, h⟩ := bind_eq_ok.mp h
  obtain ⟨_, hhost, h⟩ := bind_eq_ok.mp h
  rw [ensure_eq_ok] at hs hhost
  refine ⟨scheme, _, hs, ⟨hhost, hostOf_notMem _, ?_⟩, (pure_eq_ok.mp h).symm⟩
  intro c hc
  have hmem := List.mem_takeWhile_imp (hostOf_subset hc)
  simpa using hmem

/-- **Redaction is idempotent.** -/
theorem redactRpcOrigin_idem {raw origin : String} (h : redactRpcOrigin raw = .ok origin) :
    redactRpcOrigin origin = .ok origin := by
  obtain ⟨scheme, host, hs, hh, rfl⟩ := redactRpcOrigin_eq_ok h
  exact redactRpcOrigin_plain hs hh

end Kanatoko
