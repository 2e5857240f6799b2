import Kanatoko.Scenario.Calls

/-!
# Runs on a storage map

A Host that looks up what it has not touched shows one ledger: its storage map over the base
that the source answers from. So does every storage map that an open frame has saved. Contract
code on such a Host does what it does on that ledger, with the nonce entries of an address as
the names it has.
-/

namespace Kanatoko

open Adaptive

/-! ## The storage map -/

theorem find_key_eq_some_iff {β : Type} {l : List (LedgerKey × β)} {key : LedgerKey}
    (h : ∀ value value', (key, value) ∈ l → (key, value') ∈ l → value = value') {value : β} :
    (l.find? fun x => x.1 = key).map Prod.snd = some value ↔ (key, value) ∈ l := by
  have hfound : ∀ {x}, l.find? (fun x => x.1 = key) = some x → (key, x.2) ∈ l := by
    intro x hx
    have hkey : x.1 = key := by simpa using List.find?_some hx
    rw [← hkey]
    exact List.mem_of_find?_eq_some hx
  constructor
  · intro hfind
    obtain ⟨x, hx, rfl⟩ := Option.map_eq_some_iff.mp hfind
    exact hfound hx
  · intro hmem
    cases hfind : l.find? fun x => x.1 = key with
    | none => exact absurd (decide_eq_true rfl) (List.find?_eq_none.mp hfind _ hmem)
    | some x => exact congrArg some (h x.2 value (hfound hfind) hmem)

theorem value_unique {β : Type} {l : List (LedgerKey × β)} (h : (l.map Prod.fst).Nodup)
    {key : LedgerKey} (value value' : β) (hmem : (key, value) ∈ l) (hmem' : (key, value') ∈ l) :
    value = value' :=
  congrArg Prod.snd (List.inj_on_of_nodup_map h hmem hmem' rfl)

theorem find_key_eq_none_iff {β : Type} {l : List (LedgerKey × β)} {key : LedgerKey} :
    (l.find? fun x => x.1 = key).map Prod.snd = none ↔ key ∉ l.map Prod.fst := by
  rw [Option.map_eq_none_iff, List.find?_eq_none]
  constructor
  · intro h hmem
    obtain ⟨x, hx, rfl⟩ := List.mem_map.mp hmem
    exact h x hx (decide_eq_true rfl)
  · intro h x hx heq
    exact h (List.mem_map.mpr ⟨x, hx, of_decide_eq_true heq⟩)

namespace StoredEntries

theorem storage_eq_some_iff (stored : StoredEntries) {key : LedgerKey}
    {value : Option PresentEntry} :
    stored.storage key = some value ↔ (key, value) ∈ stored.entries :=
  find_key_eq_some_iff (value_unique stored.nodup)

theorem storage_eq_none_iff (stored : StoredEntries) {key : LedgerKey} :
    stored.storage key = none ↔ key ∉ stored.keys :=
  find_key_eq_none_iff

theorem storage_set (stored : StoredEntries) (key : LedgerKey) (value : Option PresentEntry) :
    (stored.set key value).storage = stored.storage.set key value := by
  funext k
  unfold storage set Storage.set
  rw [List.find?_cons]
  by_cases h : k = key
  · rw [if_pos h, decide_eq_true h.symm]
    rfl
  · rw [if_neg h, decide_eq_false fun heq => h heq.symm, List.find?_filter]
    refine congrArg (Option.map Prod.snd) (congrArg (List.find? · stored.entries) ?_)
    funext x
    by_cases hx : x.1 = k
    · simp [hx, h]
    · simp [hx]

/-- The ledger a Host shows: its storage map over a base. -/
def overlay (stored : StoredEntries) (base : LedgerKey → Option PresentEntry) :
    LedgerKey → Option PresentEntry :=
  fun key => (stored.storage key).getD (base key)

theorem overlay_set (stored : StoredEntries) (base : LedgerKey → Option PresentEntry)
    (key : LedgerKey) (value : Option PresentEntry) :
    (stored.set key value).overlay base = Function.update (stored.overlay base) key value := by
  funext k
  rw [overlay, storage_set, Function.update_apply]
  by_cases h : k = key
  · rw [if_pos h, h, Storage.set_self]
    rfl
  · rw [if_neg h, Storage.set_of_ne _ h]
    rfl

/-- Writing down what the base says changes nothing. -/
theorem overlay_set_base (stored : StoredEntries) (base : LedgerKey → Option PresentEntry)
    {key : LedgerKey} (h : stored.storage key = none) :
    (stored.set key (base key)).overlay base = stored.overlay base := by
  have hkey : stored.overlay base key = base key := by rw [overlay, h]; rfl
  rw [overlay_set, ← hkey, Function.update_eq_self]

end StoredEntries

/-! ## The ledger as a store with names -/

theorem isNonceKey_nonceKey (address : ScAddress) (nonce : Int64) :
    isNonceKey (nonceKey address nonce) = true := rfl

/-- A nonce is a name of its address. -/
def contents (ledger : LedgerKey → Option PresentEntry) :
    Draws.Contents ContractKey PresentEntry ScAddress Int64 where
  data := fun key => ledger key.1
  used := fun address nonce => (ledger (nonceKey address nonce)).isSome

theorem contents_put (ledger : LedgerKey → Option PresentEntry) (key : ContractKey)
    (value : Option PresentEntry) : contents (Function.update ledger key.1 value) =
      { contents ledger with data := Function.update (contents ledger).data key value } := by
  have hdata : (fun k : ContractKey => Function.update ledger key.1 value k.1)
      = Function.update (fun k : ContractKey => ledger k.1) key value := by
    funext k
    simp only [Function.update_apply, Subtype.ext_iff]
  have hused : ∀ address nonce, Function.update ledger key.1 value (nonceKey address nonce)
      = ledger (nonceKey address nonce) := by
    intro address nonce
    refine Function.update_of_ne (fun heq => ?_) _ _
    have hkey := key.2
    rw [← heq, isNonceKey_nonceKey] at hkey
    cases hkey
  simp only [contents, hdata, hused]

theorem contents_draw (ledger : LedgerKey → Option PresentEntry) (address : ScAddress)
    (nonce : Int64) (entry : PresentEntry) :
    contents (Function.update ledger (nonceKey address nonce) (some entry)) =
      { contents ledger with used := Draws.use (contents ledger).used address nonce } := by
  have hdata : ∀ key : ContractKey,
      Function.update ledger (nonceKey address nonce) (some entry) key.1 = ledger key.1 := by
    intro key
    refine Function.update_of_ne (fun heq => ?_) _ _
    have hkey := key.2
    rw [heq, isNonceKey_nonceKey] at hkey
    cases hkey
  have hused : (fun a n =>
      (Function.update ledger (nonceKey address nonce) (some entry) (nonceKey a n)).isSome)
      = Draws.use (fun a n => (ledger (nonceKey a n)).isSome) address nonce := by
    funext a n
    have hkey : nonceKey a n = nonceKey address nonce ↔ a = address ∧ n = nonce := by
      simp [nonceKey]
    by_cases h : a = address ∧ n = nonce
    · rw [hkey.mpr h, Function.update_self, Draws.use, decide_eq_true h]
      rfl
    · rw [Function.update_of_ne (fun heq => h (hkey.mp heq)), Draws.use, decide_eq_false h,
        Bool.false_or]
  simp only [contents, hdata, hused]

/-- What a Host shows over a base, in its open frames too. -/
def HostState.draws (s : HostState) (base : LedgerKey → Option PresentEntry) :
    Draws.State ContractKey PresentEntry ScAddress Int64 where
  toContents := contents (s.stored.overlay base)
  drawn := s.drawn
  frames := s.frames.map fun saved => contents (saved.overlay base)

namespace HostState

variable (s : HostState) (base : LedgerKey → Option PresentEntry)

theorem draws_put (key : ContractKey) (value : Option PresentEntry) :
    (s.set key.1 value).draws base =
      { s.draws base with data := Function.update (s.draws base).data key value } := by
  unfold draws set
  rw [s.stored.overlay_set, contents_put]

/-- A nonce that is drawn and written uses its name. -/
theorem draws_set_nonce (address : ScAddress) (nonce : Int64) (entry : PresentEntry) :
    (s.set (nonceKey address nonce) (some entry)).draws base =
      { s.draws base with used := Draws.use (s.draws base).used address nonce } := by
  unfold draws set
  rw [s.stored.overlay_set, contents_draw]

theorem draws_pop (succeeded : Bool) :
    (s.pop succeeded).draws base = (s.draws base).pop succeeded := by
  unfold draws pop Draws.State.pop
  dsimp only
  rw [Draws.map_close (fun saved : StoredEntries => contents (saved.overlay base)), List.map_tail]

end HostState

/-! ## Programs on their Host -/

section Runs

variable {S α : Type} {get : Server LedgerKey (fun _ => LookupAnswer) S} {Inv : S → Prop}
  {K : LedgerKey → Prop} {base : LedgerKey → Option PresentEntry}

/-- The server answers the keys in `K` from the base. -/
def Serves (get : Server LedgerKey (fun _ => LookupAnswer) S) (Inv : S → Prop)
    (K : LedgerKey → Prop) (base : LedgerKey → Option PresentEntry) : Prop :=
  ∀ key t, Inv t → K key → (get key t).1 = .ok (base key) ∧ Inv (get key t).2

/-- A lookup goes on with what the ledger has, and shows the same ledger. -/
theorem HostState.lookup_spec (hget : Serves get Inv K base) (s : HostState) (key : LedgerKey)
    (next : Option PresentEntry → HostState → HostClient (Except HostTrap α)) {t : S}
    (ht : Inv t) (hK : ∀ k ∈ (s.lookup key next).asked get t, K k) :
    ∃ s' t', Inv t' ∧ s'.draws base = s.draws base ∧
      s'.stored.overlay base = s.stored.overlay base ∧
      (s.lookup key next).run get t = (next (s.stored.overlay base key) s').run get t' ∧
      ∀ k ∈ (next (s.stored.overlay base key) s').asked get t', K k := by
  unfold lookup at hK ⊢
  cases hstorage : s.stored.storage key with
  | some value =>
    have hvalue : s.stored.overlay base key = value := by
      rw [StoredEntries.overlay, hstorage]
      rfl
    rw [hstorage] at hK
    exact ⟨s, t, ht, rfl, rfl, by rw [hvalue], by rw [hvalue]; exact hK⟩
  | none =>
    have hvalue : s.stored.overlay base key = base key := by
      rw [StoredEntries.overlay, hstorage]
      rfl
    have hoverlay := s.stored.overlay_set_base base hstorage
    rw [hstorage] at hK
    obtain ⟨hanswer, ht'⟩ := hget key t ht (hK key List.mem_cons_self)
    refine ⟨s.set key (base key), (get key t).2, ht', ?_, hoverlay, ?_,
      fun k hk => hK k (List.mem_cons_of_mem _ ?_)⟩
    · unfold draws set
      rw [hoverlay]
    · rw [hvalue, Client.run_ask, hanswer]
    · rw [hvalue] at hk
      rw [hanswer]
      exact hk

/-- What the lookups ahead of a frame lead to on a ledger. -/
def loaded {β : Type} (ledger : LedgerKey → Option PresentEntry) : Lookups β → β
  | .done b => b
  | .ask key rest => loaded ledger (rest (ledger key.1))

/-- Lookups go on with what they lead to on the ledger, and show the same ledger. -/
theorem HostState.load_spec {β : Type} (hget : Serves get Inv K base)
    (next : β → HostState → HostClient (Except HostTrap α)) (c : Lookups β) :
    ∀ (s : HostState) (t : S), Inv t → (∀ k ∈ (load c s next).asked get t, K k) →
    ∃ s' t', Inv t' ∧ s'.draws base = s.draws base ∧
      s'.stored.overlay base = s.stored.overlay base ∧
      (load c s next).run get t = (next (loaded (s.stored.overlay base) c) s').run get t' ∧
      ∀ k ∈ (next (loaded (s.stored.overlay base) c) s').asked get t', K k := by
  induction c with
  | done b => exact fun s t ht hK => ⟨s, t, ht, rfl, rfl, rfl, hK⟩
  | ask key rest ih =>
    intro s t ht hK
    obtain ⟨s₁, t₁, ht₁, hdraws, hoverlay, hrun, hK₁⟩ := s.lookup_spec hget key.1 _ ht hK
    obtain ⟨s₂, t₂, ht₂, hdraws₂, hoverlay₂, hrun₂, hK₂⟩ := ih _ s₁ t₁ ht₁ hK₁
    rw [hoverlay] at hrun₂ hK₂
    exact ⟨s₂, t₂, ht₂, hdraws₂.trans hdraws, hoverlay₂.trans hoverlay, hrun.trans hrun₂, hK₂⟩

/-- How a run on a store ends on its Host. -/
def ended : Option α → Except HostTrap α
  | some a => .ok a
  | none => .error .nonceExists

/-- A run on the Host ends as a run on the ledger the Host shows. -/
structure EndsAs (Inv : S → Prop) (base : LedgerKey → Option PresentEntry)
    (r : (Except HostTrap α × HostState) × S)
    (e : Option α × Draws.State ContractKey PresentEntry ScAddress Int64) : Prop where
  server : Inv r.2
  result : r.1.1 = ended e.1
  state : r.1.2.draws base = e.2

/-- **Contract code on its Host runs as on the ledger the Host shows.** -/
theorem MockHost.on_spec (host : MockHost) (info : LedgerInfo) (hget : Serves get Inv K base)
    (p : HostProgram α) : ∀ (s : HostState) (t : S), Inv t →
    (∀ key ∈ (host.on info p s).asked get t, K key) →
    EndsAs Inv base ((host.on info p s).run get t) (Draws.exec host.nonces p (s.draws base)) := by
  induction p with
  | done a => exact fun s t ht _ => ⟨ht, rfl, rfl⟩
  | ask op next ih =>
    intro s t ht hK
    cases op with
    | get key =>
      obtain ⟨s', t', ht', hdraws, hoverlay, hrun, hK'⟩ := s.lookup_spec hget key.1 _ ht hK
      have hnext := ih (s.stored.overlay base key.1) s' t' ht' hK'
      rw [hdraws] at hnext
      rw [MockHost.on, hrun]
      exact hnext
    | put key value =>
      have hnext := ih ⟨⟩ (s.set key.1 value) t ht hK
      rw [s.draws_put] at hnext
      exact hnext
    | push => exact ih ⟨⟩ s.push t ht hK
    | pop succeeded =>
      have hnext := ih ⟨⟩ (s.pop succeeded) t ht hK
      rw [s.draws_pop] at hnext
      exact hnext
    | draw address =>
      rw [MockHost.on] at hK ⊢
      obtain ⟨s', t', ht', hdraws, hoverlay, hrun, hK'⟩ :=
        HostState.lookup_spec hget { s with drawn := s.drawn + 1 } _ _ ht hK
      rw [hrun]
      dsimp only at hoverlay hK' ⊢
      cases hnonce : s.stored.overlay base (nonceKey address (host.nonces s.drawn)) with
      | some value =>
        have hused : (s.draws base).used address
            (host.nonces (s.draws base).drawn) = true :=
          congrArg Option.isSome hnonce
        rw [Draws.exec_draw_used hused]
        exact ⟨ht', rfl, hdraws⟩
      | none =>
        have hused : (s.draws base).used address
            (host.nonces (s.draws base).drawn) = false :=
          congrArg Option.isSome hnonce
        rw [hnonce] at hK'
        have hnext := ih ⟨⟩ _ t' ht' hK'
        rw [HostState.draws_set_nonce, hdraws] at hnext
        rw [Draws.exec_draw_new hused]
        exact hnext

end Runs

end Kanatoko
