/-!
# Blanks

The characters that separate words, the words of a text, and the removal of blanks at its edges.
-/

namespace Sdp.Text

/-- A blank separates words: the white space of every script and the four information separators. -/
def isBlank (c : Char) : Bool :=
  let n := c.toNat
  (0x09 ≤ n && n ≤ 0x0D) || (0x1C ≤ n && n ≤ 0x20) || n == 0x85 || n == 0xA0 || n == 0x1680 ||
    (0x2000 ≤ n && n ≤ 0x200A) || n == 0x2028 || n == 0x2029 || n == 0x202F || n == 0x205F ||
    n == 0x3000

/-- The maximal runs of non-blank characters, in order. -/
def words (s : List Char) : List (List Char) :=
  (s.splitOnP isBlank).filter fun w => !w.isEmpty

/-- A word is not empty and holds no blank. -/
def IsWord (w : List Char) : Prop :=
  w ≠ [] ∧ ∀ c ∈ w, isBlank c = false

instance (w : List Char) : Decidable (IsWord w) :=
  decidable_of_iff (w ≠ [] ∧ w.all (!isBlank ·)) (by simp [IsWord])

/-- Blanks and nothing else, or nothing at all. -/
def IsGap (s : List Char) : Prop :=
  ∀ c ∈ s, isBlank c

/-- No blank stands at either end. -/
structure IsTrimmed (s : List Char) : Prop where
  first : ∀ c ∈ s.head?, isBlank c = false
  last : ∀ c ∈ s.getLast?, isBlank c = false

/-- Words with one space between neighbours. -/
def unwords (ws : List (List Char)) : List Char :=
  [' '].intercalate ws

/-- Drops the blanks at the start. -/
def trimStart (s : List Char) : List Char :=
  s.dropWhile isBlank

/-- Drops the blanks at the end. -/
def trimEnd (s : List Char) : List Char :=
  s.foldr (fun c rest => if isBlank c && rest.isEmpty then [] else c :: rest) []

/-- Drops the blanks at both ends. -/
def trim (s : List Char) : List Char :=
  trimEnd (trimStart s)

/-- The first word, and all that follows it from the next word on; blanks at the very end stay. -/
def cutWord (s : List Char) : List Char × List Char :=
  let s := trimStart s
  (s.takeWhile (!isBlank ·), trimStart (s.dropWhile (!isBlank ·)))

/-! ## Lengths -/

/-- The characters of some words, each counted with one separator. -/
def weight : List (List Char) → Nat
  | [] => 0
  | w :: rest => w.length + 1 + weight rest

theorem length_unwords_le (ws : List (List Char)) : (unwords ws).length ≤ weight ws := by
  induction ws with
  | nil => simp [unwords]
  | cons w rest ih =>
    cases rest with
    | nil => simp [unwords, weight]
    | cons v rest =>
      simp only [unwords, weight, List.intercalate_cons_cons, List.length_append, List.length_cons,
        List.length_nil] at ih ⊢
      omega

theorem weight_splitOnP (p : Char → Bool) (s : List Char) :
    weight (s.splitOnP p) = s.length + 1 := by
  induction s with
  | nil => simp [weight]
  | cons c rest ih =>
    rw [List.splitOnP_cons_eq_if_modifyHead]
    split
    · simp only [weight, List.length_nil, List.length_cons] at ih ⊢
      omega
    · cases h : rest.splitOnP p with
      | nil => simp [weight, h] at ih
      | cons w ws =>
        simp only [weight, h, List.modifyHead_cons, List.length_cons] at ih ⊢
        omega

theorem weight_filter_le (p : List Char → Bool) (ws : List (List Char)) :
    weight (ws.filter p) ≤ weight ws := by
  induction ws with
  | nil => simp
  | cons w rest ih =>
    simp only [List.filter_cons]
    split
    · simp only [weight]
      omega
    · simp only [weight]
      omega

theorem weight_words_le (s : List Char) : weight (words s) ≤ s.length + 1 :=
  weight_splitOnP isBlank s ▸ weight_filter_le _ _

theorem length_trimStart_le (s : List Char) : (trimStart s).length ≤ s.length := by
  induction s with
  | nil => simp [trimStart]
  | cons c rest ih =>
    simp only [trimStart, List.dropWhile_cons] at ih ⊢
    split
    · exact Nat.le_succ_of_le ih
    · simp

theorem length_trimEnd_le (s : List Char) : (trimEnd s).length ≤ s.length := by
  induction s with
  | nil => simp [trimEnd]
  | cons c rest ih =>
    simp only [trimEnd, List.foldr_cons] at ih ⊢
    split
    · simp
    · simpa using ih

theorem length_trim_le (s : List Char) : (trim s).length ≤ s.length :=
  Nat.le_trans (length_trimEnd_le _) (length_trimStart_le _)

end Sdp.Text
