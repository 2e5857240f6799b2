import Kanatoko.Auto
import Kanatoko.Lib.Words

/-!
# Cache names

What `sanitize_cache_name` makes of a thread name, compared with its specification, and the one
path that a default cache has.
-/

namespace Kanatoko

/-- The specification: the words of the name with one hyphen between them, cut to eighty
characters and without a hyphen at the end; `scenario` when there are no words. -/
def specifiedCacheName (raw : String) : String :=
  let words := Words.runs isCacheNameChar raw.toList
  if words = [] then "scenario"
  else String.ofList (Words.stripped '-' ((['-'].intercalate words).take 80))

theorem hyphen_not_kept : isCacheNameChar '-' = false := by decide

/-! ## Lengths in bytes -/

/-- Every letter that is kept is one byte long. -/
theorem utf8Size_cacheNameChar {ch : Char} (h : isCacheNameChar ch = true) : ch.utf8Size = 1 := by
  rw [Char.utf8Size_eq_one_iff, UInt32.le_iff_toNat_le]
  simp only [isCacheNameChar, Char.isAlphanum, Char.isAlpha, Char.isUpper, Char.isLower,
    Char.isDigit, Bool.or_eq_true, Bool.and_eq_true, decide_eq_true_eq, ge_iff_le,
    UInt32.le_iff_toNat_le] at h
  rcases h with ((⟨_, h⟩ | ⟨_, h⟩) | ⟨_, h⟩) | rfl
  · exact h.trans (by decide)
  · exact h.trans (by decide)
  · exact h.trans (by decide)
  · decide

/-- The letters of a cache name and the hyphen. -/
def CacheNameText (text : List Char) : Prop :=
  ∀ ch ∈ text, isCacheNameChar ch = true ∨ ch = '-'

theorem CacheNameText.snoc {text : List Char} (h : CacheNameText text) {ch : Char}
    (hch : isCacheNameChar ch = true ∨ ch = '-') : CacheNameText (text ++ [ch]) := by
  intro c hc
  rcases List.mem_append.mp hc with hc | hc
  · exact h c hc
  · rw [List.mem_singleton.mp hc]
    exact hch

theorem CacheNameText.utf8Len_eq {text : List Char} (h : CacheNameText text) :
    utf8Len text = text.length := by
  induction text with
  | nil => rfl
  | cons ch text ih =>
    have hch : ch.utf8Size = 1 := by
      rcases h ch List.mem_cons_self with hch | rfl
      · exact utf8Size_cacheNameChar hch
      · decide
    have htext := ih fun c hc => h c (List.mem_cons_of_mem ch hc)
    unfold utf8Len at htext ⊢
    rw [List.map_cons, List.sum_cons, hch, htext, List.length_cons, Nat.add_comm]

/-! ## The loop -/

/-- There is room for one more letter, and less room behind it. -/
theorem append_take {text rest : List Char} {ch : Char} (h : text.length < 80) :
    text ++ (ch :: rest).take (80 - text.length)
      = (text ++ [ch]) ++ rest.take (80 - (text ++ [ch]).length) := by
  rw [List.take_cons (by omega), List.length_append, List.length_singleton, Nat.sub_sub,
    List.append_assoc, List.singleton_append]

/-- **The loop is a cut of the streamed words**, wherever the eightieth character falls. -/
theorem sanitizeChars_eq (rest : List Char) : ∀ (sanitized : List Char) (pending : Bool),
    CacheNameText sanitized → sanitized.length ≤ 80 →
    sanitizeChars sanitized pending rest
      = sanitized ++ (Words.stream isCacheNameChar '-' pending (!sanitized.isEmpty) rest).take
          (80 - sanitized.length) := by
  induction rest with
  | nil => intro sanitized pending _ _; simp [sanitizeChars, Words.stream]
  | cons ch rest ih =>
    intro sanitized pending htext hlen
    rw [sanitizeChars, Words.stream]
    by_cases hch : isCacheNameChar ch = true
    · -- the letter itself, once it is known what is in front of it
      have hletter : ∀ {front : List Char}, CacheNameText front → front.length ≤ 80 →
          (if utf8Len front = defaultCacheNameMax then front
            else sanitizeChars (front ++ [ch]) false rest)
          = front ++ (ch :: Words.stream isCacheNameChar '-' false true rest).take
              (80 - front.length) := by
        intro front hfront hle
        rw [hfront.utf8Len_eq, defaultCacheNameMax]
        by_cases hfull : front.length = 80
        · simp [hfull]
        · have hlt : front.length < 80 := Nat.lt_of_le_of_ne hle hfull
          have hnonempty : (!(front ++ [ch]).isEmpty) = true := by simp
          rw [if_neg hfull, append_take hlt, ← hnonempty]
          exact ih _ false (hfront.snoc (Or.inl hch)) (by simpa using hlt)
      rw [if_pos hch, if_pos hch]
      by_cases hdue : (pending && !sanitized.isEmpty) = true
      · simp only [hdue, Bool.true_and, if_true]
        rw [htext.utf8Len_eq, defaultCacheNameMax]
        by_cases hlt : sanitized.length < 80
        · -- the separator may be the eightieth character
          rw [if_pos (decide_eq_true hlt), List.singleton_append, append_take hlt]
          exact hletter (htext.snoc (Or.inr rfl)) (by simpa using hlt)
        · have hfull : sanitized.length = 80 := by omega
          simp [hfull, htext.utf8Len_eq]
      · simp only [hdue, Bool.false_and, Bool.false_eq_true, if_false, List.nil_append]
        exact hletter htext hlen
    · rw [if_neg hch, if_neg hch, ih _ _ htext hlen]

/-! ## The specification -/

theorem sanitizeChars_eq_joined (raw : String) :
    sanitizeChars [] false raw.toList
      = (Words.joined isCacheNameChar '-' raw.toList).take 80 := by
  rw [sanitizeChars_eq raw.toList [] false (fun _ h => nomatch h) (by simp), List.isEmpty_nil,
    Bool.not_true, Words.stream_eq_joined]
  rfl

theorem spaced_words (raw : String) :
    Words.Spaced isCacheNameChar '-' (Words.joined isCacheNameChar '-' raw.toList) :=
  Words.spaced_joined raw.toList

/-- **`sanitize_cache_name` meets its specification.** -/
theorem sanitizeCacheName_eq (raw : String) : sanitizeCacheName raw = specifiedCacheName raw := by
  have hspaced := spaced_words raw
  rw [sanitizeCacheName, sanitizeChars_eq_joined, hspaced.rdropWhile_cut hyphen_not_kept 80,
    specifiedCacheName]
  by_cases hwords : Words.runs isCacheNameChar raw.toList = []
  · simp [hwords, Words.joined, Words.stripped]
  · have hcut := hspaced.cut_ne_nil hyphen_not_kept (Words.joined_ne_nil hwords)
      (by decide : 80 ≠ 0)
    rw [if_neg hwords, if_neg (by simpa using hcut), Words.joined]

example : sanitizeCacheName "::tests::café_1 !" = "tests-caf-_1" := by decide

/-! ## The shape of a cache name -/

/-- A text that the sanitizer can return. -/
structure CacheName (name : String) : Prop where
  spaced : Words.Spaced isCacheNameChar '-' name.toList
  nonempty : name.toList ≠ []
  short : name.toList.length ≤ 80

theorem cacheName_scenario : CacheName "scenario" where
  spaced := by
    refine .cons (by decide) ?_
    repeat refine .letter (by decide) ?_
    exact .nil
  nonempty := by decide
  short := by decide

theorem cacheName_specified (raw : String) : CacheName (specifiedCacheName raw) := by
  have hspaced := spaced_words raw
  unfold specifiedCacheName
  by_cases hwords : Words.runs isCacheNameChar raw.toList = []
  · rw [if_pos hwords]
    exact cacheName_scenario
  · rw [if_neg hwords]
    constructor <;> rw [String.toList_ofList]
    · exact hspaced.cut hyphen_not_kept 80
    · exact hspaced.cut_ne_nil hyphen_not_kept (Words.joined_ne_nil hwords) (by decide)
    · exact (Words.length_stripped_le _ _).trans (List.length_take_le 80 _)

/-- **A cache name is a fixed point.** -/
theorem CacheName.specified_eq {name : String} (h : CacheName name) :
    specifiedCacheName name = name := by
  have hjoined : (['-'].intercalate (Words.runs isCacheNameChar name.toList)) = name.toList :=
    h.spaced.joined_eq hyphen_not_kept
  have hwords : Words.runs isCacheNameChar name.toList ≠ [] := by
    intro hnil
    rw [hnil] at hjoined
    exact h.nonempty hjoined.symm
  rw [specifiedCacheName, if_neg hwords, hjoined, List.take_of_length_le h.short, Words.stripped,
    if_neg (h.spaced.getLast?_ne hyphen_not_kept), String.ofList_toList]

theorem cacheName_sanitizeCacheName (raw : String) : CacheName (sanitizeCacheName raw) := by
  rw [sanitizeCacheName_eq]
  exact cacheName_specified raw

/-! ## The path of a default cache -/

theorem ne_of_five_le {text other : String} (h : 5 ≤ text.toList.length)
    (hother : other.toList.length < 5) : text ≠ other := by
  rintro rfl
  omega

theorem digitChar_ne_slash {n : Nat} (h : n < 16) : Nat.digitChar n ≠ '/' := by
  interval_cases n <;> decide

theorem slash_not_mem_hex (bytes : Bytes) : '/' ∉ (hex bytes).toList := by
  intro hmem
  rw [hex, String.toList_ofList, List.mem_flatMap] at hmem
  obtain ⟨byte, _, hbyte⟩ := hmem
  have hlt := byte.toNat_lt
  rcases List.mem_cons.mp hbyte with h | h
  · exact digitChar_ne_slash (by omega) h.symm
  · exact digitChar_ne_slash (by omega) (List.mem_singleton.mp h).symm

theorem CacheName.slash_not_mem {name : String} (h : CacheName name) : '/' ∉ name.toList := by
  intro hmem
  rcases h.spaced.mem hmem with h | h <;> exact absurd h (by decide)

section

variable [Crates]

/-- The file of a default cache. -/
def defaultCacheFile (networkPassphrase threadName callerFile : String)
    (callerLine callerColumn : UInt32) : String :=
  sanitizeCacheName threadName ++ "-"
    ++ defaultCacheHash networkPassphrase threadName callerFile callerLine callerColumn ++ ".json"

variable (networkPassphrase threadName callerFile : String) (callerLine callerColumn : UInt32)

theorem slash_not_mem_defaultCacheFile :
    '/' ∉ (defaultCacheFile networkPassphrase threadName callerFile callerLine
      callerColumn).toList := by
  have hname := (cacheName_sanitizeCacheName threadName).slash_not_mem
  have hdash : '/' ∉ "-".toList := by decide
  have hjson : '/' ∉ ".json".toList := by decide
  simp only [defaultCacheFile, defaultCacheHash, String.toList_append, List.mem_append, hname,
    hdash, hjson, slash_not_mem_hex, or_self, not_false_eq_true]

/-- The name ends in more than two characters, so it is neither `.` nor `..`. -/
theorem five_le_length_defaultCacheFile :
    5 ≤ (defaultCacheFile networkPassphrase threadName callerFile callerLine
      callerColumn).toList.length := by
  have hjson : ".json".toList.length = 5 := by decide
  rw [defaultCacheFile, String.toList_append, List.length_append, hjson]
  exact Nat.le_add_left _ _

/-- **A default cache is one file directly under `.kanatoko`.** -/
theorem defaultCachePath_eq :
    defaultCachePath networkPassphrase threadName callerFile callerLine callerColumn
      = [".kanatoko",
        defaultCacheFile networkPassphrase threadName callerFile callerLine callerColumn] := by
  have hlen := five_le_length_defaultCacheFile networkPassphrase threadName callerFile callerLine
    callerColumn
  exact Disk.join_name (slash_not_mem_defaultCacheFile _ _ _ _ _) (ne_of_five_le hlen (by decide))
    (ne_of_five_le hlen (by decide))

theorem fileName_defaultCachePath :
    Disk.fileName (defaultCachePath networkPassphrase threadName callerFile callerLine
        callerColumn)
      = some (defaultCacheFile networkPassphrase threadName callerFile callerLine
        callerColumn) := by
  have hlen := five_le_length_defaultCacheFile networkPassphrase threadName callerFile callerLine
    callerColumn
  rw [defaultCachePath_eq]
  simp [Disk.fileName, ne_of_five_le hlen (by decide : "..".toList.length < 5),
    ne_of_five_le hlen (by decide : "/".toList.length < 5)]

/-- **The sanitizer meets its specification.** Every name it returns is therefore a text of the
allowed letters with single hyphens inside, which it leaves alone, and the cache of a public
runner is a single file under `.kanatoko`. -/
theorem cache_name_sanitized :
    (∀ raw, sanitizeCacheName raw = specifiedCacheName raw) ∧
    (∀ raw, sanitizeCacheName raw ≠ "" ∧ (sanitizeCacheName raw).length ≤ 80 ∧
      (∀ ch ∈ (sanitizeCacheName raw).toList, isCacheNameChar ch = true ∨ ch = '-') ∧
      (sanitizeCacheName raw).toList.head? ≠ some '-' ∧
      (sanitizeCacheName raw).toList.getLast? ≠ some '-' ∧
      ¬['-', '-'] <:+: (sanitizeCacheName raw).toList ∧
      sanitizeCacheName (sanitizeCacheName raw) = sanitizeCacheName raw) ∧
    ∀ (rpcUrl networkPassphrase : String) (thread : Option String) (callerFile : String)
      (callerLine callerColumn : UInt32), ∃ path,
      (networkRunner rpcUrl networkPassphrase thread callerFile callerLine callerColumn).cache
        = some path ∧
      path = defaultCachePath networkPassphrase (thread.getD "scenario") callerFile callerLine
        callerColumn ∧
      Disk.parent path = [".kanatoko"] ∧ ∃ name, path = [".kanatoko", name] ∧
      '/' ∉ name.toList ∧ Disk.fileName path = some name ∧
      name = sanitizeCacheName (thread.getD "scenario") ++ "-"
        ++ defaultCacheHash networkPassphrase (thread.getD "scenario") callerFile callerLine
          callerColumn ++ ".json" := by
  refine ⟨sanitizeCacheName_eq, fun raw => ?_, fun rpcUrl networkPassphrase thread callerFile
    callerLine callerColumn => ⟨_, rfl, rfl, ?_, _, defaultCachePath_eq _ _ _ _ _,
      slash_not_mem_defaultCacheFile _ _ _ _ _, fileName_defaultCachePath _ _ _ _ _, rfl⟩⟩
  · have hname := cacheName_sanitizeCacheName raw
    have hlen : (sanitizeCacheName raw).length ≤ 80 := by
      rw [← String.length_toList]
      exact hname.short
    refine ⟨fun hempty => hname.nonempty (by rw [hempty]; rfl), hlen, fun ch => hname.spaced.mem,
      hname.spaced.head?_ne hyphen_not_kept, hname.spaced.getLast?_ne hyphen_not_kept,
      hname.spaced.no_double hyphen_not_kept, ?_⟩
    rw [sanitizeCacheName_eq (sanitizeCacheName raw), hname.specified_eq]
  · rw [defaultCachePath_eq]
    rfl

end

end Kanatoko
