import Mathlib.Data.List.DropRight
import Mathlib.Tactic.Common

/-!
# Words

The words of a text are its maximal runs of kept letters. `joined` puts one separator between
them, and `stream` does so letter by letter, with a flag for a separator that is due.

A text that is made so is `Spaced`: joining its words again gives the text back, and it stays
spaced when it is cut and a separator at its end is dropped.
-/

universe u

namespace Words

variable {α : Type u} (keep : α → Bool) (sep : α)

/-- The maximal runs of kept letters. -/
def runs (text : List α) : List (List α) :=
  (text.splitOnP fun a => !keep a).filter fun run => !run.isEmpty

/-- The words with one separator between them. -/
def joined (text : List α) : List α := [sep].intercalate (runs keep text)

/-- Joins the words letter by letter. A separator is due when a word has begun before. -/
def stream (pending started : Bool) : List α → List α
  | [] => []
  | a :: rest =>
    if keep a then (if pending && started then [sep] else []) ++ a :: stream false true rest
    else stream true started rest

/-- The words behind a word, each behind a separator. -/
def behind (words : List (List α)) : List α := words.flatMap fun word => sep :: word

theorem intercalate_cons (word : List α) (words : List (List α)) :
    [sep].intercalate (word :: words) = word ++ behind sep words := by
  induction words generalizing word with
  | nil => simp [behind]
  | cons next words ih =>
    rw [List.intercalate_cons_cons, ih, behind, behind, List.flatMap_cons]
    simp

variable {keep sep}

/-- Splitting in front of a kept letter and in front of another one. -/
theorem splitOnP_letter {a : α} (rest : List α) (h : keep a = true) :
    ∃ word words, rest.splitOnP (fun a => !keep a) = word :: words ∧
      (a :: rest).splitOnP (fun a => !keep a) = (a :: word) :: words := by
  cases hsplit : rest.splitOnP fun a => !keep a with
  | nil => exact absurd hsplit (List.splitOnP_ne_nil _ _)
  | cons word words =>
    refine ⟨word, words, rfl, ?_⟩
    rw [List.splitOnP_cons_eq_if_modifyHead, hsplit]
    simp [h]

theorem splitOnP_other {a : α} (rest : List α) (h : keep a = false) :
    (a :: rest).splitOnP (fun a => !keep a) = [] :: rest.splitOnP fun a => !keep a := by
  rw [List.splitOnP_cons_eq_if_modifyHead]
  simp [h]

/-- What is streamed behind a letter: the rest of its word and the words behind it. -/
theorem stream_started (text : List α) :
    (∀ word words, text.splitOnP (fun a => !keep a) = word :: words →
      stream keep sep false true text
        = word ++ behind sep (words.filter fun run => !run.isEmpty)) ∧
    stream keep sep true true text = behind sep (runs keep text) := by
  induction text with
  | nil =>
    refine ⟨fun word words h => ?_, rfl⟩
    cases h
    rfl
  | cons a rest ih =>
    by_cases ha : keep a = true
    · obtain ⟨word, words, hrest, hall⟩ := splitOnP_letter rest ha
      refine ⟨fun word' words' h => ?_, ?_⟩
      · cases hall.symm.trans h
        simp [stream, ha, ih.1 word words hrest]
      · simp [stream, ha, ih.1 word words hrest, runs, hall, behind]
    · have hall := splitOnP_other rest (Bool.not_eq_true _ ▸ ha)
      refine ⟨fun word' words' h => ?_, ?_⟩
      · cases hall.symm.trans h
        simp only [stream, ha, List.nil_append]
        exact ih.2
      · simp only [stream, ha, ih.2, runs, hall]
        simp

/-- Nothing is due before the first word. -/
theorem stream_eq_joined (pending : Bool) (text : List α) :
    stream keep sep pending false text = joined keep sep text := by
  induction text generalizing pending with
  | nil => rfl
  | cons a rest ih =>
    by_cases ha : keep a = true
    · obtain ⟨word, words, hrest, hall⟩ := splitOnP_letter rest ha
      have hruns : runs keep (a :: rest)
          = (a :: word) :: words.filter fun run => !run.isEmpty := by
        simp [runs, hall]
      rw [joined, hruns, intercalate_cons, stream, if_pos ha,
        (stream_started rest).1 word words hrest]
      simp
    · have hall := splitOnP_other rest (Bool.not_eq_true _ ▸ ha)
      rw [stream, if_neg ha, ih, joined, joined, runs, runs, hall]
      simp

theorem joined_ne_nil {text : List α} (h : runs keep text ≠ []) : joined keep sep text ≠ [] := by
  obtain ⟨word, words, hruns⟩ := List.exists_cons_of_ne_nil h
  have hword : word ∈ runs keep text := by rw [hruns]; exact List.mem_cons_self
  have hne : word ≠ [] := by simpa using (List.mem_filter.mp hword).2
  rw [joined, hruns, intercalate_cons]
  exact List.append_ne_nil_of_left_ne_nil hne _

/-! ## Spaced texts -/

variable (keep sep)

/-- What may stand behind a kept letter: a letter, or one separator and a letter. -/
inductive Tail : List α → Prop
  | nil : Tail []
  | letter {a : α} {rest : List α} (ha : keep a = true) (h : Tail rest) : Tail (a :: rest)
  | word {a : α} {rest : List α} (ha : keep a = true) (h : Tail rest) : Tail (sep :: a :: rest)

/-- Words with one separator between them. -/
inductive Spaced : List α → Prop
  | nil : Spaced []
  | cons {a : α} {rest : List α} (ha : keep a = true) (h : Tail keep sep rest) : Spaced (a :: rest)

variable {keep sep}

theorem tail_stream (text : List α) : ∀ pending, Tail keep sep (stream keep sep pending true text) := by
  induction text with
  | nil => exact fun _ => .nil
  | cons a rest ih =>
    intro pending
    rw [stream]
    split
    · next ha =>
      cases pending with
      | false => exact .letter ha (ih false)
      | true => exact .word ha (ih false)
    · exact ih true

theorem spaced_stream (text : List α) :
    ∀ pending, Spaced keep sep (stream keep sep pending false text) := by
  induction text with
  | nil => exact fun _ => .nil
  | cons a rest ih =>
    intro pending
    rw [stream]
    split
    · next ha =>
      rw [Bool.and_false, if_neg Bool.false_ne_true]
      exact .cons ha (tail_stream rest false)
    · exact ih true

theorem spaced_joined (text : List α) : Spaced keep sep (joined keep sep text) := by
  rw [← stream_eq_joined false]
  exact spaced_stream text false

theorem Tail.stream_eq (hsep : keep sep = false) {text : List α} (h : Tail keep sep text) :
    stream keep sep false true text = text := by
  induction h with
  | nil => rfl
  | letter ha _ ih => simp [stream, ha, ih]
  | word ha _ ih => simp [stream, ha, hsep, ih]

/-- **Joining the words of a spaced text gives it back.** -/
theorem Spaced.joined_eq (hsep : keep sep = false) {text : List α} (h : Spaced keep sep text) :
    joined keep sep text = text := by
  rw [← stream_eq_joined false]
  cases h with
  | nil => rfl
  | cons ha h => simp [stream, ha, h.stream_eq hsep]

/-! ### What is in a spaced text -/

theorem ne_sep (hsep : keep sep = false) {a : α} (ha : keep a = true) : a ≠ sep := by
  rintro rfl
  rw [hsep] at ha
  cases ha

theorem Tail.mem {text : List α} (h : Tail keep sep text) {a : α} (ha : a ∈ text) :
    keep a = true ∨ a = sep := by
  induction h with
  | nil => cases ha
  | letter hb _ ih =>
    rcases List.mem_cons.mp ha with rfl | ha
    · exact Or.inl hb
    · exact ih ha
  | word hb _ ih =>
    rcases List.mem_cons.mp ha with rfl | ha
    · exact Or.inr rfl
    · rcases List.mem_cons.mp ha with rfl | ha
      · exact Or.inl hb
      · exact ih ha

theorem Tail.getLast?_ne (hsep : keep sep = false) {text : List α} (h : Tail keep sep text) :
    text.getLast? ≠ some sep := by
  induction h with
  | nil => simp
  | @letter a rest ha _ ih =>
    cases rest with
    | nil => simpa using ne_sep hsep ha
    | cons b rest => simpa [List.getLast?_cons_cons] using ih
  | @word a rest ha _ ih =>
    cases rest with
    | nil => simpa using ne_sep hsep ha
    | cons b rest => simpa [List.getLast?_cons_cons] using ih

theorem Tail.no_double (hsep : keep sep = false) {text : List α} (h : Tail keep sep text) :
    ¬[sep, sep] <:+: text := by
  have hstart : ∀ {a : α} {rest : List α}, keep a = true → ¬[sep, sep] <+: a :: rest :=
    fun ha hprefix => ne_sep hsep ha (List.cons_prefix_cons.mp hprefix).1.symm
  induction h with
  | nil => simp
  | letter ha _ ih =>
    rw [List.infix_cons_iff]
    exact not_or.mpr ⟨hstart ha, ih⟩
  | word ha _ ih =>
    rw [List.infix_cons_iff, List.infix_cons_iff]
    refine not_or.mpr ⟨fun hprefix => ?_, not_or.mpr ⟨hstart ha, ih⟩⟩
    exact ne_sep hsep ha (List.cons_prefix_cons.mp (List.cons_prefix_cons.mp hprefix).2).1.symm

namespace Spaced

variable {text : List α}

theorem mem (h : Spaced keep sep text) {a : α} (ha : a ∈ text) : keep a = true ∨ a = sep := by
  cases h with
  | nil => cases ha
  | cons hb h => exact (Tail.letter hb h).mem ha

theorem head?_ne (hsep : keep sep = false) (h : Spaced keep sep text) :
    text.head? ≠ some sep := by
  cases h with
  | nil => simp
  | cons ha h => simpa using ne_sep hsep ha

theorem getLast?_ne (hsep : keep sep = false) (h : Spaced keep sep text) :
    text.getLast? ≠ some sep := by
  cases h with
  | nil => simp
  | cons ha h => exact (Tail.letter ha h).getLast?_ne hsep

theorem no_double (hsep : keep sep = false) (h : Spaced keep sep text) :
    ¬[sep, sep] <:+: text := by
  cases h with
  | nil => simp
  | cons ha h => exact (Tail.letter ha h).no_double hsep

end Spaced

/-! ## Cutting -/

section Cut

variable [DecidableEq α]

/-- A text without a separator at its end. -/
def stripped (sep : α) (text : List α) : List α :=
  if text.getLast? = some sep then text.dropLast else text

theorem stripped_cons {a : α} {rest : List α} (h : a ≠ sep ∨ rest ≠ []) :
    stripped sep (a :: rest) = a :: stripped sep rest := by
  cases rest with
  | nil =>
    have hne : a ≠ sep := h.resolve_right fun h => h rfl
    simp [stripped, hne]
  | cons b rest =>
    rw [stripped, stripped, List.getLast?_cons_cons, List.dropLast_cons_cons]
    split <;> rfl

theorem length_stripped_le (sep : α) (text : List α) :
    (stripped sep text).length ≤ text.length := by
  unfold stripped
  split
  · rw [List.length_dropLast]
    exact Nat.sub_le _ _
  · exact Nat.le_refl _

theorem Tail.cut (hsep : keep sep = false) {text : List α} (h : Tail keep sep text) :
    ∀ n, Tail keep sep (stripped sep (text.take n)) := by
  induction h with
  | nil => exact fun n => by rw [List.take_nil]; exact .nil
  | @letter a rest ha _ ih =>
    rintro (_ | n)
    · exact .nil
    · rw [List.take_succ_cons, stripped_cons (Or.inl (ne_sep hsep ha))]
      exact .letter ha (ih n)
  | @word a rest ha _ ih =>
    rintro (_ | _ | n)
    · exact .nil
    · -- the cut is right behind the separator
      simpa [stripped] using Tail.nil
    · rw [List.take_succ_cons, List.take_succ_cons, stripped_cons (Or.inr (by simp)),
        stripped_cons (Or.inl (ne_sep hsep ha))]
      exact .word ha (ih n)

/-- **A spaced text stays spaced when it is cut and stripped.** -/
theorem Spaced.cut (hsep : keep sep = false) {text : List α} (h : Spaced keep sep text) (n : Nat) :
    Spaced keep sep (stripped sep (text.take n)) := by
  cases h with
  | nil => rw [List.take_nil]; exact .nil
  | cons ha h =>
    cases n with
    | zero => exact .nil
    | succ n =>
      rw [List.take_succ_cons, stripped_cons (Or.inl (ne_sep hsep ha))]
      exact .cons ha (h.cut hsep n)

theorem Spaced.cut_ne_nil (hsep : keep sep = false) {text : List α} (h : Spaced keep sep text)
    (hne : text ≠ []) {n : Nat} (hn : n ≠ 0) : stripped sep (text.take n) ≠ [] := by
  cases h with
  | nil => exact absurd rfl hne
  | cons ha h =>
    obtain ⟨n, rfl⟩ := Nat.exists_eq_succ_of_ne_zero hn
    rw [List.take_succ_cons, stripped_cons (Or.inl (ne_sep hsep ha))]
    exact List.cons_ne_nil _ _

/-- Dropping every separator at the end of a cut drops the one that can be there. -/
theorem Spaced.rdropWhile_cut (hsep : keep sep = false) {text : List α}
    (h : Spaced keep sep text) (n : Nat) :
    (text.take n).rdropWhile (· = sep) = stripped sep (text.take n) := by
  have hcut := (h.cut hsep n).getLast?_ne hsep
  have hkept : ∀ {cut : List α}, cut.getLast? ≠ some sep → cut.rdropWhile (· = sep) = cut := by
    intro cut hlast
    refine List.rdropWhile_eq_self_iff.mpr fun hne heq => hlast ?_
    rw [List.getLast?_eq_some_getLast hne, of_decide_eq_true heq]
  unfold stripped at hcut ⊢
  by_cases hlast : (text.take n).getLast? = some sep
  · rw [if_pos hlast] at hcut ⊢
    obtain ⟨init, hinit⟩ := List.getLast?_eq_some_iff.mp hlast
    rw [hinit, List.dropLast_concat] at hcut ⊢
    rw [List.rdropWhile_concat_pos _ _ _ (by simp), hkept hcut]
  · rw [if_neg hlast, hkept hlast]

end Cut

end Words
