import Sdp.Proofs.Numeral.Plain

/-!
# Integers are read as they are written

Main statement: `readInteger?_eq_some_iff`. The sign and the grouped digits are common to all numbers.
-/

namespace Sdp.Numeral

open Text (isBlank digitValue?)

variable {negative : Bool} {ds : List Nat} {q t : List Char}

/-! ## Signs -/

/-- The sign is cut off, and nothing of what follows it. -/
theorem cutSign_iff {P : Bool → List Char → Prop} (hplus : ∀ negative rest, ¬ P negative ('+' :: rest))
    (hminus : ∀ negative rest, ¬ P negative ('-' :: rest)) (q : List Char) :
    P (cutSign q).1 (cutSign q).2 ↔
      ∃ negative sign rest, q = sign ++ rest ∧ IsSign negative sign ∧ P negative rest := by
  constructor
  · intro h
    unfold cutSign at h
    split at h
    · exact ⟨_, _, _, rfl, .minus, h⟩
    · exact ⟨_, _, _, rfl, .plus, h⟩
    · exact ⟨_, _, _, rfl, .none, h⟩
  · rintro ⟨negative, sign, rest, rfl, hsign, h⟩
    cases hsign with
    | plus => exact h
    | minus => exact h
    | none =>
        rw [List.nil_append]
        unfold cutSign
        split
        · exact absurd h (hminus _ _)
        · exact absurd h (hplus _ _)
        · exact h

theorem map_plainChar_eq_sign_append {sign : List Char} (hsign : IsSign negative sign) :
    t.map plainChar = sign ++ q ↔ ∃ body, t = sign ++ body ∧ body.map plainChar = q := by
  cases hsign with
  | none => simp
  | plus => simp [List.map_eq_cons_iff, plainChar_eq_mark_iff (show IsMark '+' by decide)]
  | minus => simp [List.map_eq_cons_iff, plainChar_eq_mark_iff (show IsMark '-' by decide)]

/-! ## Grouped digits -/

theorem IsGrouped.ne_nil (h : IsGrouped ds t) : ds ≠ [] := by
  cases h <;> exact List.cons_ne_nil _ _

theorem IsGrouped.lt (h : IsGrouped ds t) : ∀ d ∈ ds, d < 10 := by
  induction h with
  | one hc => simpa using lt_of_digitValue? hc
  | next hc _ ih => exact List.forall_mem_cons.mpr ⟨lt_of_digitValue? hc, ih⟩
  | apart hc _ ih => exact List.forall_mem_cons.mpr ⟨lt_of_digitValue? hc, ih⟩

theorem IsGrouped.not_isBlank (h : IsGrouped ds t) : ∀ c ∈ t, isBlank c = false := by
  induction h with
  | one hc => simpa using isBlank_of_digitValue? hc
  | next hc _ ih => exact List.forall_mem_cons.mpr ⟨isBlank_of_digitValue? hc, ih⟩
  | apart hc _ ih =>
      exact List.forall_mem_cons.mpr
        ⟨isBlank_of_digitValue? hc, List.forall_mem_cons.mpr ⟨by decide, ih⟩⟩

theorem IsGrouped.head (h : IsGrouped ds t) : ∃ c rest d, t = c :: rest ∧ digitValue? c = some d := by
  cases h with
  | one hc => exact ⟨_, _, _, rfl, hc⟩
  | next hc _ => exact ⟨_, _, _, rfl, hc⟩
  | apart hc _ => exact ⟨_, _, _, rfl, hc⟩

theorem isGrouped_of_groupedDigits? (h : groupedDigits? (t.map plainChar) = some ds) : IsGrouped ds t := by
  generalize hq : t.map plainChar = q at h
  fun_induction groupedDigits? q generalizing t ds with
  | case1 => cases h
  | case2 p =>
      obtain ⟨c, rfl, rfl⟩ := List.map_eq_singleton_iff.mp hq
      obtain ⟨d, hd, rfl⟩ := Option.map_eq_some_iff.mp h
      exact .one (decimalDigit?_plainChar c ▸ hd)
  | case3 p rest ih =>
      obtain ⟨c, t, rfl, rfl, hrest⟩ := List.map_eq_cons_iff.mp hq
      obtain ⟨m, t, rfl, hm, rfl⟩ := List.map_eq_cons_iff.mp hrest
      obtain rfl := (plainChar_eq_mark_iff (by decide)).mp hm
      simp only [Option.bind_eq_bind, Option.bind_eq_some_iff, Option.pure_def, Option.some.injEq,
        decimalDigit?_plainChar] at h
      obtain ⟨d, hd, ds, hds, rfl⟩ := h
      exact .apart hd (ih rfl hds)
  | case4 p rest _ _ ih =>
      obtain ⟨c, t, rfl, rfl, rfl⟩ := List.map_eq_cons_iff.mp hq
      simp only [Option.bind_eq_bind, Option.bind_eq_some_iff, Option.pure_def, Option.some.injEq,
        decimalDigit?_plainChar] at h
      obtain ⟨d, hd, ds, hds, rfl⟩ := h
      exact .next hd (ih rfl hds)

theorem groupedDigits?_of_isGrouped (h : IsGrouped ds t) : groupedDigits? (t.map plainChar) = some ds := by
  induction h with
  | one hc => simp [groupedDigits?, decimalDigit?_plainChar, hc]
  | apart hc _ ih =>
      have hmark : plainChar '_' = '_' := rfl
      simp [groupedDigits?, decimalDigit?_plainChar, hmark, hc, ih]
  | @next c d ds t hc ht ih =>
      -- what follows starts with a digit, so it is not taken for an underscore
      obtain ⟨c', rest, d', rfl, hc'⟩ := ht.head
      have hne : plainChar c' ≠ '_' := fun h => by
        rw [← decimalDigit?_plainChar, h] at hc'
        cases hc'
      rw [List.map_cons] at ih ⊢
      rw [List.map_cons, groupedDigits?]
      · simp [decimalDigit?_plainChar, hc, ih]
      · simp
      · intro rest h
        exact hne (List.cons.inj h).1

theorem groupedDigits?_eq_some_iff : groupedDigits? (t.map plainChar) = some ds ↔ IsGrouped ds t :=
  ⟨isGrouped_of_groupedDigits?, groupedDigits?_of_isGrouped⟩

theorem isSome_of_groupedDigits? {p : Char} (h : groupedDigits? (p :: q) = some ds) :
    (decimalDigit? p).isSome := by
  unfold groupedDigits? at h
  split at h
  · cases h
  · next heq =>
      obtain ⟨rfl, -⟩ := List.cons.inj heq
      obtain ⟨d, hd, -⟩ := Option.map_eq_some_iff.mp h
      exact Option.isSome_of_eq_some hd
  all_goals
    next heq =>
      obtain ⟨rfl, -⟩ := List.cons.inj heq
      obtain ⟨d, hd, -⟩ := Option.bind_eq_some_iff.mp h
      exact Option.isSome_of_eq_some hd

/-! ## Integers -/

/-- The grouped digits that are read are those of the text, and the sign is its sign. -/
theorem exists_groupedDigits?_iff {Q : Bool → List Nat → Prop} (s : List Char) :
    (∃ ds, groupedDigits? (cutSign (plain s)).2 = some ds ∧ Q (cutSign (plain s)).1 ds) ↔
      Framed (fun negative body => ∃ ds, IsGrouped ds body ∧ Q negative ds) s := by
  let P (negative : Bool) (rest : List Char) : Prop := ∃ ds, groupedDigits? rest = some ds ∧ Q negative ds
  have hunsigned {p : Char} (hp : decimalDigit? p = none) (negative : Bool) (rest : List Char) :
      ¬ P negative (p :: rest) := by
    rintro ⟨ds, hds, -⟩
    have hdigit := isSome_of_groupedDigits? hds
    simp [hp] at hdigit
  refine framed_iff (A := fun q => P (cutSign q).1 (cutSign q).2) s (fun t => ?_) fun negative body h => ?_
  · rw [cutSign_iff (hunsigned rfl) (hunsigned rfl)]
    refine exists₂_congr fun negative sign => ?_
    constructor
    · rintro ⟨rest, heq, hsign, ds, hds, h⟩
      obtain ⟨body, rfl, rfl⟩ := (map_plainChar_eq_sign_append hsign).mp heq
      exact ⟨body, rfl, hsign, ds, groupedDigits?_eq_some_iff.mp hds, h⟩
    · rintro ⟨body, rfl, hsign, ds, hds, h⟩
      exact ⟨_, (map_plainChar_eq_sign_append hsign).mpr ⟨body, rfl, rfl⟩, hsign, ds,
        groupedDigits?_eq_some_iff.mpr hds, h⟩
  · obtain ⟨ds, hds, -⟩ := h
    exact hds.not_isBlank

theorem readInteger?_eq_some_iff {n : Int} {s : List Char} : readInteger? s = some n ↔ IsInteger n s := by
  have hread : readInteger? s = some n ↔ ∃ ds, groupedDigits? (cutSign (plain s)).2 = some ds ∧
      ds.length ≤ maxIntegerDigits ∧ signed (cutSign (plain s)).1 (ofDigits 10 ds) = n := by
    simp [readInteger?, Option.bind_eq_some_iff, signed]
  rw [hread]
  exact exists_groupedDigits?_iff
    (Q := fun negative ds => ds.length ≤ maxIntegerDigits ∧ signed negative (ofDigits 10 ds) = n) s

/-- Too many digits are no integer, whatever their value is. -/
theorem readInteger?_of_long {front sign body back : List Char} (hfront : IsMargin front)
    (hsign : IsSign negative sign) (hbody : IsGrouped ds body) (hback : IsMargin back)
    (hlong : maxIntegerDigits < ds.length) : readInteger? (front ++ (sign ++ body) ++ back) = none := by
  have hframed :
      Framed (fun _ body => ∃ es, IsGrouped es body ∧ es = ds) (front ++ (sign ++ body) ++ back) :=
    .intro hfront hsign ⟨ds, hbody, rfl⟩ hback
  obtain ⟨_, hds, rfl⟩ := (exists_groupedDigits?_iff (Q := fun _ es => es = ds) _).mpr hframed
  rw [readInteger?]
  dsimp only
  rw [hds, Option.bind_some, if_neg (Nat.not_le.mpr hlong)]

/-! ## Canonical texts -/

theorem isGrouped_map_digitChar (hne : ds ≠ []) (hds : ∀ d ∈ ds, d < 10) :
    IsGrouped ds (ds.map digitChar) := by
  have hdigit : ∀ d < 10, digitValue? (digitChar d) = some d := by decide
  induction ds with
  | nil => exact absurd rfl hne
  | cons d ds ih =>
      obtain ⟨hd, hds⟩ := List.forall_mem_cons.mp hds
      cases ds with
      | nil => exact .one (hdigit d hd)
      | cons e ds => exact .next (hdigit d hd) (ih (List.cons_ne_nil e ds) hds)

theorem isGrouped_decimal (n : Nat) : IsGrouped (digits 10 n) (decimal n) :=
  isGrouped_map_digitChar (digits_ne_nil 10 n) fun _ => lt_of_mem_digits (by decide)

theorem isInteger_append {sign body : List Char} (hsign : IsSign negative sign) (hbody : IsGrouped ds body)
    (hlength : ds.length ≤ maxIntegerDigits) :
    IsInteger (signed negative (ofDigits 10 ds)) (sign ++ body) := by
  have hinteger : IsInteger (signed negative (ofDigits 10 ds)) ([] ++ (sign ++ body) ++ []) :=
    .intro isMargin_nil hsign ⟨ds, hbody, hlength, rfl⟩ isMargin_nil
  rwa [List.nil_append, List.append_nil] at hinteger

theorem isInteger_signedDecimal {n : Int} (hn : (digits 10 n.natAbs).length ≤ maxIntegerDigits) :
    IsInteger n (signedDecimal n) := by
  have hdecimal {negative : Bool} {sign : List Char} (hsign : IsSign negative sign) :
      IsInteger (signed negative n.natAbs) (sign ++ decimal n.natAbs) := by
    have hvalue := isInteger_append hsign (isGrouped_decimal n.natAbs) hn
    rwa [ofDigits_digits (by decide)] at hvalue
  cases n with
  | ofNat n => exact hdecimal .none
  | negSucc n => exact hdecimal .minus

end Sdp.Numeral
