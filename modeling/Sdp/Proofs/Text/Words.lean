import Sdp.Proofs.Text.Pieces
import Sdp.Text.Blank

/-!
# Words of a text

Blanks divide a text into words and are otherwise lost: whatever text has the same words is read
the same way. Main statement: `words_unwords`, words written with spaces between them are read back.
-/

namespace Sdp.Text

/-! ## Splitting into words -/

theorem words_nil : words [] = [] := rfl

/-- A blank is the end of one word and the start of another. -/
theorem words_append_blank {c : Char} (hc : isBlank c) (s t : List Char) :
    words (s ++ c :: t) = words s ++ words t := by
  simp only [words, List.splitOnP_append_cons s t hc, List.filter_append]

theorem words_cons_blank {c : Char} (hc : isBlank c) (s : List Char) : words (c :: s) = words s := by
  simpa only [List.nil_append, words_nil] using words_append_blank hc [] s

theorem words_append_left {b : List Char} (hb : ∀ c ∈ b, isBlank c) (s : List Char) :
    words (b ++ s) = words s := by
  induction b with
  | nil => rfl
  | cons c b ih =>
      rw [List.cons_append, words_cons_blank (hb c (List.mem_cons_self ..))]
      exact ih fun d hd => hb d (List.mem_cons_of_mem _ hd)

theorem words_append_right {b : List Char} (hb : ∀ c ∈ b, isBlank c) (s : List Char) :
    words (s ++ b) = words s := by
  cases b with
  | nil => rw [List.append_nil]
  | cons c b =>
      have hrest := words_append_left (fun d hd => hb d (List.mem_cons_of_mem _ hd)) []
      rw [List.append_nil, words_nil] at hrest
      rw [words_append_blank (hb c (List.mem_cons_self ..)), hrest, List.append_nil]

theorem words_of_isWord {w : List Char} (hw : IsWord w) : words w = [w] := by
  rw [words, List.splitOnP_eq_singleton hw.2]
  simp [hw.1]

theorem isWord_of_mem_words {s w : List Char} (hw : w ∈ words s) : IsWord w := by
  obtain ⟨hw, hne⟩ := List.mem_filter.mp hw
  exact ⟨by simpa using hne, (mem_splitOnP hw).1⟩

theorem infix_of_mem_words {s w : List Char} (hw : w ∈ words s) : w <:+: s :=
  (mem_splitOnP (List.mem_filter.mp hw).1).2

/-- Every word of a text is a word, and stands somewhere in the text. -/
theorem forall_of_words_eq {s : List Char} {ws : List (List Char)} (h : words s = ws) :
    ∀ w ∈ ws, IsWord w ∧ w <:+: s :=
  fun _ hw => ⟨isWord_of_mem_words (h ▸ hw), infix_of_mem_words (h ▸ hw)⟩

theorem IsWord.of_mem_splitOn {s w : List Char} {x : Char} (hs : IsWord s) (hw : w ∈ s.splitOn x) :
    ∀ c ∈ w, c ≠ x ∧ isBlank c = false :=
  fun c hc => ⟨fun he => not_mem_of_mem_splitOn hw (he ▸ hc),
    hs.2 c ((infix_of_mem_splitOn hw).subset hc)⟩

/-! ## Writing words -/

theorem IsWord.append {w s : List Char} (hw : IsWord w) (hs : ∀ c ∈ s, isBlank c = false) : IsWord (w ++ s) :=
  ⟨by simp [hw.1], List.forall_mem_append.mpr ⟨hw.2, hs⟩⟩

theorem unwords_cons_cons (v w : List Char) (ws : List (List Char)) :
    unwords (v :: w :: ws) = v ++ ' ' :: unwords (w :: ws) := by
  simp [unwords, List.intercalate_cons_cons]

theorem words_unwords {ws : List (List Char)} (h : ∀ w ∈ ws, IsWord w) : words (unwords ws) = ws := by
  induction ws with
  | nil => rfl
  | cons v ws ih =>
      have hv : words v = [v] := words_of_isWord (h v (List.mem_cons_self ..))
      cases ws with
      | nil => simpa [unwords] using hv
      | cons w ws =>
          rw [unwords_cons_cons, words_append_blank (by decide), hv,
            ih fun u hu => h u (List.mem_cons_of_mem _ hu)]
          rfl

theorem words_unwords_pair {v w : List Char} (hv : IsWord v) (hw : IsWord w) :
    words (unwords [v, w]) = [v, w] :=
  words_unwords (by simpa using ⟨hv, hw⟩)

/-- What is written ends with its last word. -/
theorem exists_unwords_eq_append {ws : List (List Char)} (hne : ws ≠ []) :
    ∃ s, unwords ws = s ++ ws.getLast hne := by
  induction ws with
  | nil => exact absurd rfl hne
  | cons v ws ih =>
      cases ws with
      | nil => exact ⟨[], by simp [unwords]⟩
      | cons w ws =>
          obtain ⟨s, hs⟩ := ih (List.cons_ne_nil _ _)
          refine ⟨v ++ ' ' :: s, ?_⟩
          rw [unwords_cons_cons, hs, List.getLast_cons (List.cons_ne_nil _ _)]
          simp

/-! ## Blanks at the edges -/

theorem trimEnd_cons (c : Char) (s : List Char) :
    trimEnd (c :: s) = if isBlank c && (trimEnd s).isEmpty then [] else c :: trimEnd s := by
  unfold trimEnd
  rw [List.foldr_cons]

/-- Only blanks are dropped at the end. -/
theorem exists_eq_trimEnd_append (s : List Char) :
    ∃ b, (∀ c ∈ b, isBlank c) ∧ s = trimEnd s ++ b := by
  induction s with
  | nil => exact ⟨[], by simp, rfl⟩
  | cons c s ih =>
      obtain ⟨b, hb, hs⟩ := ih
      rw [trimEnd_cons]
      split
      · next h =>
          rw [Bool.and_eq_true, List.isEmpty_iff] at h
          rw [h.2, List.nil_append] at hs
          refine ⟨c :: s, ?_, rfl⟩
          rw [hs]
          exact fun d hd => (List.mem_cons.mp hd).elim (fun e => e ▸ h.1) (hb d)
      · exact ⟨b, hb, by rw [List.cons_append, ← hs]⟩

/-- Trimming takes blanks off both ends and nothing else. -/
theorem exists_eq_append_trim (s : List Char) :
    ∃ a b, (∀ c ∈ a, isBlank c) ∧ (∀ c ∈ b, isBlank c) ∧ s = a ++ trim s ++ b := by
  obtain ⟨b, hb, hs⟩ := exists_eq_trimEnd_append (trimStart s)
  refine ⟨s.takeWhile isBlank, b, List.all_eq_true.mp List.all_takeWhile, hb, ?_⟩
  calc s = s.takeWhile isBlank ++ trimStart s := List.takeWhile_append_dropWhile.symm
    _ = s.takeWhile isBlank ++ trim s ++ b := by rw [List.append_assoc, trim, ← hs]

theorem trim_infix (s : List Char) : trim s <:+: s := by
  obtain ⟨a, b, -, -, hs⟩ := exists_eq_append_trim s
  exact ⟨a, b, hs.symm⟩

theorem trimEnd_append_right {b : List Char} (hb : ∀ c ∈ b, isBlank c) (s : List Char) :
    trimEnd (s ++ b) = trimEnd s := by
  induction s with
  | nil =>
      induction b with
      | nil => rfl
      | cons c b ih =>
          obtain ⟨hc, hb⟩ := List.forall_mem_cons.mp hb
          have hnil : trimEnd b = [] := ih hb
          rw [List.nil_append, trimEnd_cons, hnil, hc]
          rfl
  | cons c s ih => rw [List.cons_append, trimEnd_cons, trimEnd_cons, ih]

theorem trim_append_left {b : List Char} (hb : ∀ c ∈ b, isBlank c) (s : List Char) :
    trim (b ++ s) = trim s := by
  rw [trim, trimStart, List.dropWhile_append_of_pos hb, trim, trimStart]

theorem trim_append_right {b : List Char} (hb : ∀ c ∈ b, isBlank c) (s : List Char) :
    trim (s ++ b) = trim s := by
  rw [trim, trimStart, List.dropWhile_append]
  split
  · next h =>
      rw [List.dropWhile_eq_nil_iff.mpr hb, trim, trimStart, List.isEmpty_iff.mp h]
  · exact trimEnd_append_right hb _

theorem trim_trim (s : List Char) : trim (trim s) = trim s := by
  obtain ⟨a, b, ha, hb, hs⟩ := exists_eq_append_trim s
  calc trim (trim s) = trim (a ++ trim s ++ b) := by rw [trim_append_right hb, trim_append_left ha]
    _ = trim s := by rw [← hs]

theorem words_trim (s : List Char) : words (trim s) = words s := by
  obtain ⟨a, b, ha, hb, hs⟩ := exists_eq_append_trim s
  conv => rhs; rw [hs, words_append_right hb, words_append_left ha]

theorem trimStart_suffix (s : List Char) : trimStart s <:+ s :=
  List.dropWhile_suffix _

/-- A text without blanks at its start is empty or begins with something else. -/
theorem not_isBlank_of_trimStart_eq_cons {s t : List Char} {c : Char} (h : trimStart s = c :: t) :
    isBlank c = false := by
  induction s with
  | nil => exact nomatch h
  | cons d s ih =>
      rw [trimStart, List.dropWhile_cons] at h
      split at h
      · exact ih h
      · next hd =>
          cases h
          simpa using hd

theorem cutWord_spec {s w rest : List Char} (h : cutWord s = (w, rest)) :
    w <:+: s ∧ ∀ c t, rest = c :: t → isBlank c = false := by
  obtain ⟨rfl, rfl⟩ := Prod.mk.inj h
  refine ⟨?_, fun c t ht => not_isBlank_of_trimStart_eq_cons ht⟩
  exact (List.takeWhile_prefix _).isInfix.trans (trimStart_suffix s).isInfix

theorem trimStart_cons_of_not_isBlank {c : Char} (hc : isBlank c = false) (s : List Char) :
    trimStart (c :: s) = c :: s :=
  List.dropWhile_cons_of_neg (by simp [hc])

/-- A word, a blank and a text that does not start with a blank are cut at that blank. -/
theorem cutWord_append {w : List Char} (hw : IsWord w) {b c : Char} (hb : isBlank b) (hc : isBlank c = false)
    (s : List Char) : cutWord (w ++ b :: c :: s) = (w, c :: s) := by
  have hword : ∀ d ∈ w, (!isBlank d) = true := fun d hd => by simp [hw.2 d hd]
  have hstart : trimStart (w ++ b :: c :: s) = w ++ b :: c :: s := by
    obtain ⟨d, w, rfl⟩ := List.exists_cons_of_ne_nil hw.1
    exact trimStart_cons_of_not_isBlank (hw.2 d (List.mem_cons_self ..)) _
  have hblank : trimStart (b :: c :: s) = c :: s := by
    rw [trimStart, List.dropWhile_cons_of_pos hb]
    exact trimStart_cons_of_not_isBlank hc s
  rw [cutWord, hstart, List.takeWhile_append_of_pos hword, List.dropWhile_append_of_pos hword,
    List.takeWhile_cons_of_neg (by simp [hb]), List.dropWhile_cons_of_neg (by simp [hb]), hblank,
    List.append_nil]

theorem trimEnd_append_singleton {c : Char} (hc : isBlank c = false) (s : List Char) :
    trimEnd (s ++ [c]) = s ++ [c] := by
  induction s with
  | nil => simp [trimEnd, hc]
  | cons d s ih => simp [trimEnd_cons, ih]

/-- A text that ends with a word ends there after trimming, too. -/
theorem trimEnd_append_of_isWord {w : List Char} (hw : IsWord w) (s : List Char) :
    trimEnd (s ++ w) = s ++ w := by
  have hlast := trimEnd_append_singleton (hw.2 _ (List.getLast_mem hw.1)) (s ++ w.dropLast)
  rwa [List.append_assoc, List.dropLast_concat_getLast] at hlast

theorem trim_cons_of_not_isBlank {c : Char} (hc : isBlank c = false) (s : List Char) :
    trim (c :: s) = trimEnd (c :: s) := by
  rw [trim, trimStart_cons_of_not_isBlank hc]

/-- Nothing is left of a text of blanks only. -/
theorem trim_eq_nil_iff {s : List Char} : trim s = [] ↔ ∀ c ∈ s, isBlank c := by
  constructor
  · intro h
    obtain ⟨a, b, ha, hb, hs⟩ := exists_eq_append_trim s
    rw [h, List.append_nil] at hs
    rw [hs]
    exact fun c hc => (List.mem_append.mp hc).elim (ha c) (hb c)
  · intro h
    have hstart : trimStart s = [] := List.dropWhile_eq_nil_iff.mpr h
    rw [trim, hstart]
    rfl

/-! ## Words and their surroundings -/

/-- Blanks around a part of a text keep its words apart from the others. -/
theorem words_between {front back : List Char} (hfront : ∀ c ∈ front.getLast?, isBlank c)
    (hback : ∀ c ∈ back.head?, isBlank c) (s : List Char) :
    words (front ++ s ++ back) = words front ++ words s ++ words back := by
  have hright : words (s ++ back) = words s ++ words back := by
    cases back with
    | nil => simp [words_nil]
    | cons b back =>
        have hb : isBlank b := hback b rfl
        rw [words_append_blank hb, words_cons_blank hb]
  have hleft : words (front ++ (s ++ back)) = words front ++ words (s ++ back) := by
    rcases List.eq_nil_or_concat front with rfl | ⟨front, b, rfl⟩
    · simp [words_nil]
    · rw [List.concat_eq_append] at hfront ⊢
      have hb : isBlank b := hfront b List.getLast?_concat
      rw [List.append_assoc, List.singleton_append, words_append_blank hb, words_append_blank hb, words_nil,
        List.append_nil]
  rw [List.append_assoc, hleft, hright, List.append_assoc]

/-- A text that does not start with a blank starts with a word. -/
theorem exists_words_cons {c : Char} (hc : isBlank c = false) (s : List Char) :
    ∃ w rest, c :: s = w ++ rest ∧ IsWord w ∧ words (c :: s) = w :: words rest := by
  have hs : c :: s = (c :: s).takeWhile (!isBlank ·) ++ (c :: s).dropWhile (!isBlank ·) :=
    List.takeWhile_append_dropWhile.symm
  generalize hw : (c :: s).takeWhile (!isBlank ·) = w at hs
  generalize hrest : (c :: s).dropWhile (!isBlank ·) = rest at hs
  have hword : IsWord w := by
    subst hw
    refine ⟨by simp [hc], fun d hd => ?_⟩
    simpa using List.all_eq_true.mp List.all_takeWhile d hd
  have hblank : ∀ d ∈ rest.head?, isBlank d := by
    intro d hd
    have := List.head?_dropWhile_not (!isBlank ·) (c :: s)
    rw [hrest] at this
    cases rest with
    | nil => cases hd
    | cons e rest => cases hd; simpa using this
  refine ⟨w, rest, hs, hword, ?_⟩
  have hfront : ∀ d ∈ ([] : List Char).getLast?, isBlank d := nofun
  have := words_between hfront hblank w
  rw [hs]
  simpa [words_nil, words_of_isWord hword] using this

theorem words_eq_nil_iff {s : List Char} : words s = [] ↔ ∀ c ∈ s, isBlank c := by
  induction s with
  | nil => simp [words_nil]
  | cons c s ih =>
      cases hc : isBlank c with
      | true => rw [words_cons_blank hc, ih, List.forall_mem_cons, and_iff_right hc]
      | false =>
          obtain ⟨w, rest, -, -, hwords⟩ := exists_words_cons hc s
          simp [hwords, hc]

theorem trim_of_isWord {w : List Char} (hw : IsWord w) : trim w = w := by
  obtain ⟨c, s, rfl⟩ := List.exists_cons_of_ne_nil hw.1
  rw [trim_cons_of_not_isBlank (hw.2 c (List.mem_cons_self ..))]
  exact trimEnd_append_of_isWord hw []

theorem trim_of_words_eq_singleton {s w : List Char} (h : words s = [w]) : trim s = w := by
  induction s with
  | nil => cases h
  | cons c s ih =>
      cases hc : isBlank c with
      | true =>
          rw [words_cons_blank hc] at h
          rw [← ih h]
          exact trim_append_left (List.forall_mem_singleton.mpr hc) s
      | false =>
          obtain ⟨v, rest, hs, hv, hwords⟩ := exists_words_cons hc s
          rw [hwords, List.cons.injEq, words_eq_nil_iff] at h
          rw [hs, trim_append_right h.2, trim_of_isWord hv, h.1]

/-! ## What a cut leaves -/

section Cut

variable {s : List Char}

theorem isGap_takeWhile (s : List Char) : IsGap (s.takeWhile isBlank) :=
  List.all_eq_true.mp List.all_takeWhile

theorem takeWhile_append_trimStart (s : List Char) : s.takeWhile isBlank ++ trimStart s = s :=
  List.takeWhile_append_dropWhile

theorem head?_trimStart : ∀ c ∈ (trimStart s).head?, isBlank c = false := by
  intro c hc
  obtain ⟨rest, hrest⟩ := List.head?_eq_some_iff.mp hc
  exact not_isBlank_of_trimStart_eq_cons hrest

theorem getLast?_trimEnd : ∀ c ∈ (trimEnd s).getLast?, isBlank c = false := by
  induction s with
  | nil => exact fun c hc => nomatch hc
  | cons d s ih =>
      rw [trimEnd_cons]
      split
      · exact fun c hc => nomatch hc
      · next h =>
          cases ht : trimEnd s with
          | nil =>
              intro c hc
              obtain rfl : d = c := by simpa using hc
              simpa [ht] using h
          | cons e t =>
              rw [ht] at ih
              simpa using ih

/-- Dropping the blanks at the end leaves the start alone. -/
theorem head?_trimEnd : ∀ c ∈ (trimEnd s).head?, s.head? = some c := by
  obtain ⟨b, -, hs⟩ := exists_eq_trimEnd_append s
  intro c hc
  rw [hs, List.head?_append, hc, Option.some_or]

theorem isTrimmed_trim (s : List Char) : IsTrimmed (trim s) where
  first c hc := head?_trimStart c (head?_trimEnd c hc)
  last := getLast?_trimEnd

/-- A word that is cut off has blanks or nothing in front of it, and a blank behind it unless the text ends
there. -/
theorem eq_of_cutWord_eq {w rest : List Char} (h : cutWord s = (w, rest)) (hrest : rest ≠ []) :
    ∃ front gap, s = front ++ w ++ gap ++ rest ∧ IsGap front ∧ IsWord w ∧ gap ≠ [] ∧ IsGap gap ∧
      ∃ c t, rest = c :: t ∧ isBlank c = false := by
  obtain ⟨hw, hr⟩ := Prod.mk.inj h
  have hword : ∀ c ∈ w, isBlank c = false := fun c hc => by
    rw [← hw] at hc
    simpa using List.all_eq_true.mp List.all_takeWhile c hc
  have hback : w ++ (trimStart s).dropWhile (!isBlank ·) = trimStart s := by
    rw [← hw]
    exact List.takeWhile_append_dropWhile
  generalize hb : (trimStart s).dropWhile (!isBlank ·) = back at hr hback
  obtain ⟨c, t, hct⟩ := List.exists_cons_of_ne_nil hrest
  have hc : isBlank c = false := not_isBlank_of_trimStart_eq_cons (hr.trans hct)
  -- What stands behind the word is not empty and starts with a blank.
  obtain ⟨b, bs, rfl⟩ : ∃ b bs, back = b :: bs := by
    refine List.exists_cons_of_ne_nil fun hnil => hrest ?_
    rw [← hr, hnil]
    rfl
  have hblank : isBlank b := by
    have := List.dropWhile_get_zero_not (!isBlank ·) (trimStart s) (by rw [hb]; simp)
    simpa [hb] using this
  refine ⟨s.takeWhile isBlank, (b :: bs).takeWhile isBlank, ?_, isGap_takeWhile s, ⟨?_, hword⟩, ?_,
    isGap_takeWhile _, c, t, hct, hc⟩
  · calc s = s.takeWhile isBlank ++ trimStart s := (takeWhile_append_trimStart s).symm
      _ = s.takeWhile isBlank ++ (w ++ ((b :: bs).takeWhile isBlank ++ rest)) := by
          rw [← hback, ← hr, takeWhile_append_trimStart]
      _ = s.takeWhile isBlank ++ w ++ (b :: bs).takeWhile isBlank ++ rest := by
          simp only [List.append_assoc]
  · -- The text that is left over starts with no blank, so a word stands before the blank.
    rintro rfl
    rw [List.nil_append] at hback
    exact absurd hblank (by simp [not_isBlank_of_trimStart_eq_cons hback.symm])
  · rw [List.takeWhile_cons, if_pos hblank]
    exact List.cons_ne_nil _ _

end Cut

end Sdp.Text
