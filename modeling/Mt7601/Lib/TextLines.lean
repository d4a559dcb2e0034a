/-
# Lines of a text, and the first place of a pattern

A text is a list of octets (of anything), a line break one of them. The lines behind a line break
are listed with what follows each; searching a text for a line break and a pattern finds the first
of these lines that begins with the pattern, when the pattern itself keeps to one line.
-/
import Mathlib.Data.List.Basic

namespace TextLines

variable {α : Type} [DecidableEq α] (sep : α)

/-! ## 1. Lines -/

/-- The text up to the first line break. -/
def lineOf (s : List α) : List α := s.takeWhile (· ≠ sep)

/-- The text from the first line break on. -/
def behind (s : List α) : List α := s.dropWhile (· ≠ sep)

/-- The lines behind a line break, each with what follows it. -/
def laterLines : List α → List (List α × List α)
  | [] => []
  | c :: s => if c = sep then (lineOf sep s, behind sep s) :: laterLines s else laterLines s

/-- The later lines that begin with `p`. -/
def linesWith (p s : List α) : List (List α × List α) :=
  (laterLines sep s).filter fun l => p <+: l.1

section

variable {sep}
variable {c : α} {p s t : List α}

@[simp] theorem laterLines_nil : laterLines sep ([] : List α) = [] := rfl

theorem behind_sep : behind sep (sep :: s) = sep :: s := by
  simp [behind]

theorem behind_cons (h : c ≠ sep) : behind sep (c :: s) = behind sep s := by
  simp [behind, h]

theorem lineOf_append_behind (s : List α) : lineOf sep s ++ behind sep s = s :=
  List.takeWhile_append_dropWhile

theorem sep_notMem_lineOf (s : List α) : sep ∉ lineOf sep s := by
  intro h
  have hall : ∀ x ∈ lineOf sep s, decide (x ≠ sep) = true := List.all_eq_true.mp List.all_takeWhile
  simpa using hall sep h

theorem behind_suffix (s : List α) : behind sep s <:+ s := List.dropWhile_suffix _

theorem laterLines_sep :
    laterLines sep (sep :: s) = (lineOf sep s, behind sep s) :: laterLines sep s := if_pos rfl

theorem laterLines_cons (h : c ≠ sep) : laterLines sep (c :: s) = laterLines sep s := if_neg h

/-- A text has the same later lines from the end of its first line on. -/
theorem laterLines_behind (s : List α) : laterLines sep (behind sep s) = laterLines sep s := by
  induction s with
  | nil => rfl
  | cons c s ih =>
    by_cases h : c = sep
    · subst h
      rw [behind_sep]
    · rw [behind_cons h, laterLines_cons h, ih]

theorem mem_laterLines {l : List α × List α} (h : l ∈ laterLines sep s) :
    ∃ a, s = a ++ sep :: (l.1 ++ l.2) ∧ sep ∉ l.1 := by
  induction s with
  | nil => simp at h
  | cons c s ih =>
    by_cases hc : c = sep
    · subst hc
      rw [laterLines_sep, List.mem_cons] at h
      rcases h with rfl | h
      · exact ⟨[], by simp [lineOf_append_behind], sep_notMem_lineOf s⟩
      · obtain ⟨a, ha, hl⟩ := ih h
        exact ⟨c :: a, by rw [List.cons_append, ← ha], hl⟩
    · rw [laterLines_cons hc] at h
      obtain ⟨a, ha, hl⟩ := ih h
      exact ⟨c :: a, by rw [List.cons_append, ← ha], hl⟩

theorem linesWith_behind (s : List α) : linesWith sep p (behind sep s) = linesWith sep p s := by
  rw [linesWith, linesWith, laterLines_behind]

theorem linesWith_cons (h : c ≠ sep) : linesWith sep p (c :: s) = linesWith sep p s := by
  rw [linesWith, linesWith, laterLines_cons h]

/-- What begins with a pattern that keeps to one line has a first line that begins with it. -/
theorem prefix_lineOf (hp : sep ∉ p) : p <+: lineOf sep s ↔ p <+: s := by
  constructor
  · intro h
    exact h.trans (List.takeWhile_prefix _)
  · rintro ⟨t, rfl⟩
    refine ⟨lineOf sep t, ?_⟩
    rw [lineOf, lineOf, List.takeWhile_append_of_pos]
    intro x hx
    simpa using fun hs : x = sep => hp (hs ▸ hx)

/-- The first line of what begins with a pattern of several lines is the pattern's first line. -/
theorem lineOf_of_prefix (hp : sep ∈ p) (h : p <+: s) : lineOf sep s = lineOf sep p := by
  obtain ⟨t, rfl⟩ := h
  have hb : ¬ (lineOf sep p).length = p.length := by
    intro hl
    have he : lineOf sep p = p := (List.takeWhile_prefix _).eq_of_length hl
    exact sep_notMem_lineOf p (he.symm ▸ hp)
  unfold lineOf at hb ⊢
  rw [List.takeWhile_append, if_neg hb]

theorem linesWith_sep_of_starts (hp : sep ∉ p) (h : p <+: s) :
    linesWith sep p (sep :: s) = (lineOf sep s, behind sep s) :: linesWith sep p (behind sep s) := by
  rw [linesWith_behind, linesWith, laterLines_sep,
    List.filter_cons_of_pos (by simpa using (prefix_lineOf hp).mpr h)]
  rfl

theorem linesWith_sep_of_not (hp : sep ∉ p) (h : ¬ p <+: s) :
    linesWith sep p (sep :: s) = linesWith sep p s := by
  rw [linesWith, laterLines_sep,
    List.filter_cons_of_neg (by simpa using fun hl => h ((prefix_lineOf hp).mp hl))]
  rfl

/-- No line begins with what does not keep to one line. -/
theorem linesWith_of_mem (hp : sep ∈ p) (s : List α) : linesWith sep p s = [] := by
  refine List.filter_eq_nil_iff.mpr ?_
  intro l hl hpre
  obtain ⟨_, _, hn⟩ := mem_laterLines hl
  exact hn ((of_decide_eq_true hpre).mem hp)

end

/-! ## 2. The first place of a pattern -/

/-- The text from the first place on at which it goes on with `p`. -/
def search (p : List α) : List α → Option (List α)
  | [] => if p <+: [] then some [] else none
  | c :: s => if p <+: c :: s then some (c :: s) else search p s

section

variable {sep}
variable {c : α} {p s t : List α}

theorem search_of_starts (h : p <+: s) : search p s = some s := by
  cases s with
  | nil => exact if_pos h
  | cons c s => exact if_pos h

theorem search_cons_of_not (h : ¬ p <+: c :: s) : search p (c :: s) = search p s := if_neg h

/-- What is found is the end of the text that begins with the pattern. -/
theorem search_some (h : search p s = some t) : p <+: t ∧ t <:+ s := by
  induction s with
  | nil =>
    by_cases hp : p <+: []
    · rw [search_of_starts hp] at h
      cases h
      exact ⟨hp, List.suffix_refl _⟩
    · rw [search, if_neg hp] at h
      cases h
  | cons c s ih =>
    by_cases hp : p <+: c :: s
    · rw [search_of_starts hp] at h
      cases h
      exact ⟨hp, List.suffix_refl _⟩
    · rw [search_cons_of_not hp] at h
      obtain ⟨h₁, h₂⟩ := ih h
      exact ⟨h₁, h₂.trans (List.suffix_cons c s)⟩

/-- A single octet is found where the first line it would end is over. -/
theorem search_singleton (s : List α) :
    search [c] s = if c ∈ s then some (behind c s) else none := by
  induction s with
  | nil => rfl
  | cons d s ih =>
    by_cases h : d = c
    · subst h
      rw [search_of_starts (List.cons_prefix_cons.mpr ⟨rfl, List.nil_prefix⟩),
        if_pos List.mem_cons_self, behind_sep]
    · have hn : ¬ [c] <+: d :: s := by
        rw [List.cons_prefix_cons]
        exact fun hc => h hc.1.symm
      rw [search_cons_of_not hn, ih, behind_cons h]
      simp [Ne.symm h]

/-- **Searching for a line break and a pattern** that keeps to one line fails when no later line
begins with the pattern. -/
theorem search_line_none (hp : sep ∉ p) : search (sep :: p) s = none ↔ linesWith sep p s = [] := by
  induction s with
  | nil => simp [search, linesWith]
  | cons c s ih =>
    by_cases hc : c = sep
    · subst hc
      by_cases hs : p <+: s
      · rw [search_of_starts (List.cons_prefix_cons.mpr ⟨rfl, hs⟩), linesWith_sep_of_starts hp hs]
        simp
      · rw [search_cons_of_not fun h => hs (List.cons_prefix_cons.mp h).2,
          linesWith_sep_of_not hp hs, ih]
    · rw [search_cons_of_not fun h => hc (List.cons_prefix_cons.mp h).1.symm, linesWith_cons hc, ih]

/-- What such a search finds is the first of these lines, and the others are behind it. -/
theorem search_line_some (hp : sep ∉ p) (h : search (sep :: p) s = some (c :: t)) :
    linesWith sep p s = (lineOf sep t, behind sep t) :: linesWith sep p (behind sep t) := by
  induction s with
  | nil => simp [search] at h
  | cons d s ih =>
    by_cases hd : d = sep
    · subst hd
      by_cases hs : p <+: s
      · rw [search_of_starts (List.cons_prefix_cons.mpr ⟨rfl, hs⟩)] at h
        cases h
        exact linesWith_sep_of_starts hp hs
      · rw [search_cons_of_not fun h => hs (List.cons_prefix_cons.mp h).2] at h
        rw [linesWith_sep_of_not hp hs, ih h]
    · rw [search_cons_of_not fun h => hd (List.cons_prefix_cons.mp h).1.symm] at h
      rw [linesWith_cons hd, ih h]

end

end TextLines
