import Sdp.Proofs.Numeral.Integer

/-!
# Dropping underscores

A real number is cut into its parts after its underscores have been dropped. Main statements:
`dropUnderscores?_eq_some_iff`; `Drops.append_iff`, where what is left is cut in front of a mark the text can be
cut as well; and `drops_digits_iff`, what leaves digits is grouped digits.
-/

namespace Sdp.Numeral

open Text (digitValue?)

variable {b negative : Bool} {c m : Char} {d : Nat} {ds : List Nat} {q r t : List Char}

/-! ## What is left of a text -/

/-- The plain text `q` is left of the text; the flag says whether a digit has just been passed. -/
inductive Drops : Bool → List Char → List Char → Prop where
  | nil {b : Bool} : Drops b [] []
  | keep {b : Bool} {c p : Char} {t q : List Char} (hc : c ≠ '_') (hp : plainChar c = p)
      (h : Drops (digitValue? c).isSome t q) : Drops b (c :: t) (p :: q)
  | skip {c p : Char} {t q : List Char} (hc : (digitValue? c).isSome) (hp : plainChar c = p)
      (h : Drops true t q) : Drops true ('_' :: c :: t) (p :: q)

theorem plainChar_eq_underscore_iff : plainChar c = '_' ↔ c = '_' :=
  plainChar_eq_mark_iff (by decide)

theorem dropUnderscores?_cons_of_ne {p : Char} (hp : p ≠ '_') (b : Bool) (q : List Char) :
    dropUnderscores? b (p :: q) = (dropUnderscores? (decimalDigit? p).isSome q).map (p :: ·) := by
  rw [dropUnderscores?]
  · exact fun _ _ h _ => hp h
  · exact fun h _ => hp h

theorem drops_of_dropUnderscores? (h : dropUnderscores? b (t.map plainChar) = some q) : Drops b t q := by
  generalize hu : t.map plainChar = u at h
  fun_induction dropUnderscores? b u generalizing t q with
  | case1 b =>
      cases List.map_eq_nil_iff.mp hu
      cases h
      exact .nil
  | case2 b p rest hp ih =>
      obtain ⟨m, t, rfl, hm, hrest⟩ := List.map_eq_cons_iff.mp hu
      obtain ⟨c, t, rfl, rfl, rfl⟩ := List.map_eq_cons_iff.mp hrest
      obtain rfl := plainChar_eq_underscore_iff.mp hm
      rw [Bool.and_eq_true, decimalDigit?_plainChar] at hp
      obtain ⟨rfl, hc⟩ := hp
      obtain ⟨q, hq, rfl⟩ := Option.map_eq_some_iff.mp h
      exact .skip hc rfl (ih rfl hq)
  | case3 => cases h
  | case4 => cases h
  | case5 b p rest hne hne' ih =>
      obtain ⟨c, t, rfl, rfl, rfl⟩ := List.map_eq_cons_iff.mp hu
      obtain ⟨q, hq, rfl⟩ := Option.map_eq_some_iff.mp h
      have hc : plainChar c ≠ '_' := fun h => by
        cases hrest : t.map plainChar with
        | nil => exact hne' h hrest
        | cons d rest => exact hne d rest h hrest
      exact .keep (plainChar_eq_underscore_iff.not.mp hc) rfl (decimalDigit?_plainChar c ▸ ih rfl hq)

theorem dropUnderscores?_of_drops (h : Drops b t q) : dropUnderscores? b (t.map plainChar) = some q := by
  induction h with
  | nil => rfl
  | keep hc hp h ih =>
      subst hp
      rw [List.map_cons, dropUnderscores?_cons_of_ne (plainChar_eq_underscore_iff.not.mpr hc),
        decimalDigit?_plainChar, ih]
      rfl
  | skip hc hp h ih =>
      subst hp
      have hmark : plainChar '_' = '_' := rfl
      simp [dropUnderscores?, decimalDigit?_plainChar, hmark, hc, ih]

theorem dropUnderscores?_eq_some_iff : dropUnderscores? b (t.map plainChar) = some q ↔ Drops b t q :=
  ⟨drops_of_dropUnderscores?, dropUnderscores?_of_drops⟩

theorem drops_nil_iff : Drops b t [] ↔ t = [] := by
  constructor
  · rintro ⟨⟩
    rfl
  · rintro rfl
    exact .nil

/-- In front of a mark no underscore is dropped. -/
theorem drops_flag_iff (hr : ∀ m ∈ r.head?, IsMark m) : Drops b t r ↔ Drops false t r := by
  constructor
  · rintro (_ | ⟨hc, hp, h⟩ | ⟨hc, hp, h⟩)
    · exact .nil
    · exact .keep hc hp h
    · have hm := hr _ rfl
      obtain rfl := (plainChar_eq_mark_iff hm).mp hp
      simp [digitValue?_of_mark hm] at hc
  · rintro (_ | ⟨hc, hp, h⟩)
    · exact .nil
    · exact .keep hc hp h

/-- Where what is left is cut in front of a mark, the text can be cut. -/
theorem Drops.append_iff (hr : ∀ m ∈ r.head?, IsMark m) :
    Drops b t (q ++ r) ↔ ∃ t₁ t₂, t = t₁ ++ t₂ ∧ Drops b t₁ q ∧ Drops false t₂ r := by
  induction q generalizing b t with
  | nil =>
      rw [List.nil_append, drops_flag_iff hr]
      constructor
      · exact fun h => ⟨[], t, rfl, .nil, h⟩
      · rintro ⟨t₁, t₂, rfl, h₁, h₂⟩
        rwa [drops_nil_iff.mp h₁]
  | cons p q ih =>
      constructor
      · rintro (_ | ⟨hc, hp, h⟩ | ⟨hc, hp, h⟩)
        · obtain ⟨t₁, t₂, rfl, h₁, h₂⟩ := ih.mp h
          exact ⟨_, t₂, rfl, .keep hc hp h₁, h₂⟩
        · obtain ⟨t₁, t₂, rfl, h₁, h₂⟩ := ih.mp h
          exact ⟨_, t₂, rfl, .skip hc hp h₁, h₂⟩
      · rintro ⟨t₁, t₂, rfl, _ | ⟨hc, hp, h₁⟩ | ⟨hc, hp, h₁⟩, h₂⟩
        · exact .keep hc hp (ih.mpr ⟨_, t₂, rfl, h₁, h₂⟩)
        · exact .skip hc hp (ih.mpr ⟨_, t₂, rfl, h₁, h₂⟩)

theorem drops_mark_iff (hm : IsMark m) (hne : m ≠ '_') :
    Drops b t (m :: q) ↔ ∃ u, t = m :: u ∧ Drops false u q := by
  have hflag : (digitValue? m).isSome = false := by rw [digitValue?_of_mark hm, Option.isSome_none]
  constructor
  · rintro (_ | ⟨hc, hp, h⟩ | ⟨hc, hp, h⟩)
    · obtain rfl := (plainChar_eq_mark_iff hm).mp hp
      exact ⟨_, rfl, hflag ▸ h⟩
    · obtain rfl := (plainChar_eq_mark_iff hm).mp hp
      simp [hflag] at hc
  · rintro ⟨u, rfl, h⟩
    exact .keep hne ((plainChar_eq_mark_iff hm).mpr rfl) (hflag.symm ▸ h)

theorem drops_sign_append_iff {sign : List Char} (hsign : IsSign negative sign) :
    Drops false t (sign ++ q) ↔ ∃ body, t = sign ++ body ∧ Drops false body q := by
  cases hsign with
  | none => simp
  | plus => exact drops_mark_iff (by decide) (by decide)
  | minus => exact drops_mark_iff (by decide) (by decide)

/-- A text of marks is kept, and nothing else leaves one. -/
theorem drops_marks_iff (hq : ∀ m ∈ q, IsMark m ∧ m ≠ '_') : Drops b t q ↔ t = q := by
  induction q generalizing b t with
  | nil => exact drops_nil_iff
  | cons m q ih =>
      obtain ⟨⟨hm, hne⟩, hq⟩ := List.forall_mem_cons.mp hq
      rw [drops_mark_iff hm hne]
      simp only [ih hq, exists_eq_right]

/-! ## Digits -/

theorem Drops.isGrouped (hc : digitValue? c = some d) (hds : ∀ d ∈ ds, d < 10)
    (h : Drops true t (ds.map digitChar)) : IsGrouped (d :: ds) (c :: t) := by
  induction ds generalizing c d t with
  | nil =>
      rw [drops_nil_iff.mp h]
      exact .one hc
  | cons d' ds ih =>
      obtain ⟨hd', hds⟩ := List.forall_mem_cons.mp hds
      rcases h with _ | ⟨-, hp, h⟩ | ⟨-, hp, h⟩
      · have hc' := (plainChar_eq_digitChar_iff hd').mp hp
        rw [hc', Option.isSome_some] at h
        exact .next hc (ih hc' hds h)
      · exact .apart hc (ih ((plainChar_eq_digitChar_iff hd').mp hp) hds h)

/-- Behind a digit an underscore may stand in front of the next one. -/
theorem Drops.underscore (hc : digitValue? c = some d) (h : Drops true (c :: t) q) :
    Drops true ('_' :: c :: t) q := by
  rcases h with _ | ⟨-, hp, h⟩ | ⟨_, _, _⟩
  · rw [hc, Option.isSome_some] at h
    exact .skip (Option.isSome_of_eq_some hc) hp h
  · cases hc

theorem IsGrouped.drops (h : IsGrouped ds t) : Drops b t (ds.map digitChar) := by
  have hkeep {b : Bool} {c : Char} {d : Nat} {t q : List Char} (hc : digitValue? c = some d)
      (h : Drops true t q) : Drops b (c :: t) (digitChar d :: q) := by
    refine .keep (fun hmark => ?_) ((plainChar_eq_digitChar_iff (lt_of_digitValue? hc)).mpr hc) ?_
    · subst hmark
      cases hc
    · rwa [hc]
  induction h generalizing b with
  | one hc => exact hkeep hc .nil
  | next hc _ ih => exact hkeep hc ih
  | apart hc ht ih =>
      obtain ⟨c, rest, d, rfl, hc'⟩ := ht.head
      exact hkeep hc (ih.underscore hc')

theorem IsDigitPart.lt (h : IsDigitPart ds t) : ∀ d ∈ ds, d < 10 := by
  rcases h with ⟨rfl, -⟩ | h
  · nofun
  · exact h.lt

theorem IsDigitPart.drops (h : IsDigitPart ds t) : Drops b t (ds.map digitChar) := by
  rcases h with ⟨rfl, rfl⟩ | h
  · exact .nil
  · exact h.drops

theorem drops_digits_iff (hds : ∀ d ∈ ds, d < 10) : Drops false t (ds.map digitChar) ↔ IsDigitPart ds t := by
  constructor
  · intro h
    cases ds with
    | nil => exact .inl ⟨rfl, drops_nil_iff.mp h⟩
    | cons d ds =>
        obtain ⟨hd, hds⟩ := List.forall_mem_cons.mp hds
        obtain _ | ⟨-, hp, h⟩ := h
        have hc := (plainChar_eq_digitChar_iff hd).mp hp
        rw [hc, Option.isSome_some] at h
        exact .inr (h.isGrouped hc hds)
  · exact IsDigitPart.drops

end Sdp.Numeral
