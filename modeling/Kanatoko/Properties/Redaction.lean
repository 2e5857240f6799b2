import Kanatoko.Capture.Origin

/-!
# What redaction keeps of a URL

Redaction accepts the strings `scheme://[userinfo@]host tail` and no others, and keeps
`scheme://host` of them. So it leaks nothing but the host, and its results are its fixed
points.
-/

namespace Kanatoko

open Fallible

/-! ## Splitting and joining -/

theorem splitOnce_eq_some {pattern : List Char} : ∀ {l : List Char}
    {parts : List Char × List Char}, splitOnce pattern l = some parts →
    l = parts.1 ++ pattern ++ parts.2
  | [], _, h => by cases h
  | c :: rest, parts, h => by
    rw [splitOnce] at h
    split at h
    · next hprefix =>
      cases h
      obtain ⟨behind, heq⟩ := List.isPrefixOf_iff_prefix.mp hprefix
      rw [← heq, List.drop_left, List.nil_append]
    · obtain ⟨inner, hinner, rfl⟩ := Option.map_eq_some_iff.mp h
      rw [List.cons_append, List.cons_append, ← splitOnce_eq_some hinner]

theorem rsplitOnce_eq_some {sep : Char} : ∀ {l : List Char} {parts : List Char × List Char},
    rsplitOnce sep l = some parts → l = parts.1 ++ sep :: parts.2
  | [], _, h => by cases h
  | c :: rest, parts, h => by
    rw [rsplitOnce] at h
    cases hr : rsplitOnce sep rest with
    | some inner =>
      rw [hr] at h
      cases h
      rw [List.cons_append, ← rsplitOnce_eq_some hr]
    | none =>
      rw [hr] at h
      dsimp only at h
      split at h
      · next heq =>
        cases h
        rw [heq, List.nil_append]
      · cases h

/-- The last separator is the one that no separator follows. -/
theorem rsplitOnce_append {sep : Char} {right : List Char} (h : sep ∉ right) :
    ∀ left : List Char, rsplitOnce sep (left ++ sep :: right) = some (left, right)
  | [] => by rw [List.nil_append, rsplitOnce, rsplitOnce_eq_none_iff.mpr h, if_pos rfl]
  | c :: left => by rw [List.cons_append, rsplitOnce, rsplitOnce_append h left]

/-! ## The shape of a URL -/

/-- What stands in front of the host. -/
def userinfoChars : Option (List Char) → List Char
  | some userinfo => userinfo ++ ['@']
  | none => []

def urlChars (scheme : List Char) (userinfo : Option (List Char)) (host tail : List Char) :
    List Char :=
  scheme ++ schemeEnd ++ (userinfoChars userinfo ++ host ++ tail)

/-- A URL with an HTTP origin. The userinfo may hold any `@` and `:`. -/
structure UrlShape (scheme : List Char) (userinfo : Option (List Char)) (host tail : List Char) :
    Prop where
  scheme : isHttpScheme scheme = true
  userinfo : ∀ u ∈ userinfo, ∀ c ∈ u, endsAuthority c = false
  host : PlainHost host
  tail : ∀ c ∈ tail.head?, endsAuthority c = true

theorem takeWhile_authority {authority tail : List Char}
    (hauthority : ∀ c ∈ authority, endsAuthority c = false)
    (htail : ∀ c ∈ tail.head?, endsAuthority c = true) :
    (authority ++ tail).takeWhile (fun c => !endsAuthority c) = authority := by
  rw [List.takeWhile_append_of_pos fun c hc => by rw [hauthority c hc]; rfl]
  cases tail with
  | nil => rw [List.takeWhile_nil, List.append_nil]
  | cons c rest =>
    rw [List.takeWhile_cons_of_neg (by rw [htail c rfl]; decide), List.append_nil]

theorem hostOf_authority {host : List Char} (hhost : '@' ∉ host) (userinfo : Option (List Char)) :
    hostOf (userinfoChars userinfo ++ host) = host := by
  unfold hostOf
  cases userinfo with
  | none => rw [userinfoChars, List.nil_append, rsplitOnce_eq_none_iff.mpr hhost]
  | some u =>
    rw [userinfoChars, List.append_assoc, List.singleton_append, rsplitOnce_append hhost]

/-- **Of a URL, redaction keeps the scheme and the host.** -/
theorem UrlShape.redact {scheme : List Char} {userinfo : Option (List Char)}
    {host tail : List Char} (h : UrlShape scheme userinfo host tail) :
    redactRpcOrigin (String.ofList (urlChars scheme userinfo host tail))
      = .ok (String.ofList (originChars scheme host)) := by
  have hauthority : ∀ c ∈ userinfoChars userinfo ++ host, endsAuthority c = false := by
    intro c hc
    rcases List.mem_append.mp hc with hc | hc
    · cases userinfo with
      | none => simp [userinfoChars] at hc
      | some u =>
        rcases List.mem_append.mp hc with hc | hc
        · exact h.userinfo u rfl c hc
        · rw [List.mem_singleton.mp hc]
          rfl
    · exact h.host.noDelimiter c hc
  unfold redactRpcOrigin
  rw [String.toList_ofList, urlChars,
    show scheme ++ schemeEnd ++ (userinfoChars userinfo ++ host ++ tail)
      = originChars scheme (userinfoChars userinfo ++ host ++ tail) from rfl,
    splitOnce_scheme h.scheme]
  refine bind_eq_ok.mpr ⟨(scheme, userinfoChars userinfo ++ host ++ tail), rfl, ?_⟩
  simp only [takeWhile_authority hauthority h.tail, hostOf_authority h.host.noUserinfo]
  refine bind_eq_ok.mpr ⟨⟨⟩, ensure_eq_ok.mpr h.scheme, bind_eq_ok.mpr ⟨⟨⟩, ensure_eq_ok.mpr ?_,
    bind_eq_ok.mpr ⟨⟨⟩, ensure_eq_ok.mpr h.host.ne_nil, rfl⟩⟩⟩
  exact List.append_ne_nil_of_right_ne_nil _ h.host.ne_nil

/-- **Nothing else is accepted.** -/
theorem shape_of_redact {raw origin : String} (h : redactRpcOrigin raw = .ok origin) :
    ∃ scheme userinfo host tail, UrlShape scheme userinfo host tail ∧
      raw = String.ofList (urlChars scheme userinfo host tail) ∧
      origin = String.ofList (originChars scheme host) := by
  unfold redactRpcOrigin at h
  obtain ⟨⟨scheme, remainder⟩, hsplit, h⟩ := bind_eq_ok.mp h
  obtain ⟨_, hscheme, h⟩ := bind_eq_ok.mp h
  obtain ⟨_, _, h⟩ := bind_eq_ok.mp h
  obtain ⟨_, hhost, h⟩ := bind_eq_ok.mp h
  rw [ensure_eq_ok] at hscheme hhost
  rw [orError_eq_ok] at hsplit
  have hraw := splitOnce_eq_some hsplit
  dsimp only at hraw hhost h
  have hcut := List.takeWhile_append_dropWhile (p := fun c => !endsAuthority c) (l := remainder)
  have hauthority : ∀ c ∈ remainder.takeWhile (fun c => !endsAuthority c),
      endsAuthority c = false := by
    intro c hc
    simpa using List.mem_takeWhile_imp hc
  have htail : ∀ c ∈ (remainder.dropWhile (fun c => !endsAuthority c)).head?,
      endsAuthority c = true := by
    intro c hc
    have hhead := List.head?_dropWhile_not (fun c => !endsAuthority c) remainder
    rw [Option.mem_def.mp hc] at hhead
    simpa using hhead
  generalize remainder.takeWhile (fun c => !endsAuthority c) = authority at *
  generalize remainder.dropWhile (fun c => !endsAuthority c) = tail at *
  have hplain : PlainHost (hostOf authority) :=
    ⟨hhost, hostOf_notMem _, fun c hc => hauthority c (hostOf_subset hc)⟩
  have hjoin : ∃ userinfo, authority = userinfoChars userinfo ++ hostOf authority ∧
      ∀ u ∈ userinfo, ∀ c ∈ u, endsAuthority c = false := by
    unfold hostOf
    cases hr : rsplitOnce '@' authority with
    | none => exact ⟨none, rfl, by simp⟩
    | some parts =>
      have hparts := rsplitOnce_eq_some hr
      refine ⟨some parts.1, ?_, ?_⟩
      · rw [userinfoChars, List.append_assoc, List.singleton_append, ← hparts]
      · intro u hu c hc
        cases hu
        exact hauthority c (hparts ▸ List.mem_append_left _ hc)
  obtain ⟨userinfo, hjoined, hfree⟩ := hjoin
  refine ⟨scheme, userinfo, hostOf authority, tail, ⟨hscheme, hfree, hplain, htail⟩, ?_,
    (pure_eq_ok.mp h).symm⟩
  rw [urlChars, ← hjoined, hcut, ← hraw, String.ofList_toList]

/--
**Redaction leaks nothing, and its results are its fixed points.**

The last part is the check a bundle reader makes of the origin it finds.
-/
theorem redaction_exact :
    (∀ (scheme : List Char) (userinfo : Option (List Char)) (host tail : List Char),
      UrlShape scheme userinfo host tail →
        redactRpcOrigin (String.ofList (urlChars scheme userinfo host tail))
          = .ok (String.ofList (originChars scheme host))) ∧
    (∀ (scheme host : List Char) (userinfo userinfo' : Option (List Char)) (tail tail' : List Char),
      UrlShape scheme userinfo host tail → UrlShape scheme userinfo' host tail' →
        redactRpcOrigin (String.ofList (urlChars scheme userinfo host tail))
          = redactRpcOrigin (String.ofList (urlChars scheme userinfo' host tail'))) ∧
    (∀ raw origin, redactRpcOrigin raw = .ok origin → redactRpcOrigin origin = .ok origin) ∧
    (∀ raw, (∃ origin, redactRpcOrigin raw = .ok origin) ↔
      ∃ scheme userinfo host tail, UrlShape scheme userinfo host tail ∧
        raw = String.ofList (urlChars scheme userinfo host tail)) ∧
    ∀ origin, redactRpcOrigin origin = .ok origin ↔ ∃ raw, redactRpcOrigin raw = .ok origin := by
  refine ⟨fun _ _ _ _ h => h.redact, fun _ _ _ _ _ _ h h' => h.redact.trans h'.redact.symm,
    fun _ _ h => redactRpcOrigin_idem h, fun raw => ⟨?_, ?_⟩,
    fun origin => ⟨fun h => ⟨origin, h⟩, ?_⟩⟩
  · rintro ⟨origin, h⟩
    obtain ⟨scheme, userinfo, host, tail, hshape, hraw, _⟩ := shape_of_redact h
    exact ⟨scheme, userinfo, host, tail, hshape, hraw⟩
  · rintro ⟨scheme, userinfo, host, tail, hshape, rfl⟩
    exact ⟨_, hshape.redact⟩
  · rintro ⟨raw, h⟩
    exact redactRpcOrigin_idem h

end Kanatoko

namespace Kanatoko.Testnet

/-- Credentials with every delimiter but those that end the authority are left out. -/
theorem credentials_redacted :
    redactRpcOrigin "https://key:p@ss@rpc.io/v1?to=a://b@c#d" = .ok "https://rpc.io" := by
  have hshape : UrlShape ['h', 't', 't', 'p', 's'] (some ['k', 'e', 'y', ':', 'p', '@', 's', 's'])
      ['r', 'p', 'c', '.', 'i', 'o'] ['/', 'v', '1', '?', 't', 'o', '=', 'a', ':', '/', '/', 'b',
        '@', 'c', '#', 'd'] :=
    { scheme := rfl
      userinfo := by simp [endsAuthority]
      host := ⟨by simp, by simp, by simp [endsAuthority]⟩
      tail := by simp [endsAuthority] }
  have hredact := redaction_exact.1 _ _ _ _ hshape
  simpa [urlChars, originChars, userinfoChars, schemeEnd] using hredact

end Kanatoko.Testnet
