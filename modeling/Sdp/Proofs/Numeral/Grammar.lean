import Mathlib.Data.List.Induction
import Sdp.Numeral.Grammar
import Sdp.Numeral.Literal
import Sdp.Proofs.Numeral.Digits
import Sdp.Proofs.Text.Pieces

/-!
# Numerals are read as they are meant

Main statements: `isCanonical_iff`, a number has one text without zeros in front, and
`isUnsigned_iff`.
-/

namespace Sdp.Numeral

variable {base n : Nat} {s : List Char}

/-! ## Digits and values -/

theorem ofDigits_concat (base : Nat) (ds : List Nat) (d : Nat) :
    ofDigits base (ds ++ [d]) = ofDigits base ds * base + d := by
  simp [ofDigits, List.foldl_append]

theorem digits_of_lt {d : Nat} (hd : d < base) : digits base d = [d] := by
  rw [digits, if_pos (Or.inl hd)]

theorem digits_mul_add {m d : Nat} (hm : m ≠ 0) (hd : d < base) (hbase : 2 ≤ base) :
    digits base (m * base + d) = digits base m ++ [d] := by
  have hge : base ≤ m * base := Nat.le_mul_of_pos_left base (Nat.pos_of_ne_zero hm)
  have hdiv : (m * base + d) / base = m := by
    rw [Nat.mul_comm, Nat.mul_add_div (by omega), Nat.div_eq_of_lt hd, Nat.add_zero]
  have hmod : (m * base + d) % base = d := by
    rw [Nat.mul_comm, Nat.mul_add_mod, Nat.mod_eq_of_lt hd]
  rw [digits, if_neg (by omega), hdiv, hmod]

theorem ofDigits_ne_zero {ds : List Nat} (hbase : 2 ≤ base) (hne : ds ≠ []) (hhead : ds.head? ≠ some 0) :
    ofDigits base ds ≠ 0 := by
  induction ds using List.reverseRecOn with
  | nil => exact absurd rfl hne
  | append_singleton ds d ih =>
      rw [ofDigits_concat]
      cases ds with
      | nil => simpa [ofDigits] using hhead
      | cons c ds =>
          have hpos := ih (List.cons_ne_nil c ds) (by simpa using hhead)
          have := Nat.mul_pos (Nat.pos_of_ne_zero hpos) (by omega : 0 < base)
          omega

/-- Digits without zeros in front are those of their value. -/
theorem digits_ofDigits {ds : List Nat} (hbase : 2 ≤ base) (hne : ds ≠ []) (hlt : ∀ d ∈ ds, d < base)
    (hhead : ds.head? = some 0 → ds = [0]) : digits base (ofDigits base ds) = ds := by
  induction ds using List.reverseRecOn with
  | nil => exact absurd rfl hne
  | append_singleton ds d ih =>
      have hd : d < base := hlt d (by simp)
      cases ds with
      | nil => simpa [ofDigits] using digits_of_lt hd
      | cons c ds =>
          have hc : c ≠ 0 := by
            rintro rfl
            simpa using hhead rfl
          have hcs : (c :: ds).head? ≠ some 0 := by simpa using hc
          have hvalue := ofDigits_ne_zero hbase (List.cons_ne_nil c ds) hcs
          rw [ofDigits_concat, digits_mul_add hvalue hd hbase,
            ih (List.cons_ne_nil c ds) (fun e he => hlt e (List.mem_append_left _ he))
              (fun h => absurd h hcs)]

/-! ## Characters -/

theorem decimalDigit?_eq_some_iff {c : Char} {d : Nat} :
    decimalDigit? c = some d ↔ d < 10 ∧ digitChar d = c := by
  constructor
  · intro h
    unfold decimalDigit? at h
    split at h
    · next hc =>
        obtain rfl : c.toNat - 0x30 = d := Option.some.inj h
        have hlow : 0x30 ≤ c.toNat := hc.1
        have hhigh : c.toNat ≤ 0x39 := hc.2
        have hlt : c.toNat - 0x30 < 10 := by omega
        refine ⟨hlt, ?_⟩
        rw [digitChar, if_pos hlt, Nat.add_sub_cancel' hlow, Char.ofNat_toNat]
    · cases h
  · rintro ⟨hd, rfl⟩
    exact decimalDigit?_digitChar d hd

theorem mapM_decimalDigit?_eq_some_iff {ds : List Nat} :
    s.mapM decimalDigit? = some ds ↔ (∀ d ∈ ds, d < 10) ∧ ds.map digitChar = s := by
  induction s generalizing ds with
  | nil => cases ds <;> simp
  | cons c s ih =>
      have hbind : (c :: s).mapM decimalDigit? = some ds ↔
          ∃ d, decimalDigit? c = some d ∧ ∃ es, s.mapM decimalDigit? = some es ∧ d :: es = ds := by
        simp [Option.bind_eq_some_iff]
      rw [hbind]
      simp only [ih, decimalDigit?_eq_some_iff]
      constructor
      · rintro ⟨d, ⟨hd, rfl⟩, es, ⟨hes, rfl⟩, rfl⟩
        exact ⟨List.forall_mem_cons.mpr ⟨hd, hes⟩, rfl⟩
      · rintro ⟨hds, hchars⟩
        obtain ⟨d, es, rfl, hd, hes⟩ := List.map_eq_cons_iff.mp hchars
        obtain ⟨hlt, hrest⟩ := List.forall_mem_cons.mp hds
        exact ⟨d, ⟨hlt, hd⟩, es, ⟨hrest, hes⟩, rfl⟩

/-- The digits at the front are all that are there. -/
theorem cutDigits_eq (s : List Char) :
    s = (cutDigits s).1.map digitChar ++ (cutDigits s).2 ∧ (∀ d ∈ (cutDigits s).1, d < 10) := by
  induction s with
  | nil => exact ⟨rfl, nofun⟩
  | cons c s ih =>
      cases hc : decimalDigit? c with
      | none =>
          have hcut : cutDigits (c :: s) = ([], c :: s) := by simp [cutDigits, hc]
          rw [hcut]
          exact ⟨rfl, nofun⟩
      | some d =>
          obtain ⟨hd, rfl⟩ := decimalDigit?_eq_some_iff.mp hc
          have hcut : cutDigits (digitChar d :: s) = (d :: (cutDigits s).1, (cutDigits s).2) := by
            simp [cutDigits, hc]
          rw [hcut]
          exact ⟨congrArg (digitChar d :: ·) ih.1, List.forall_mem_cons.mpr ⟨hd, ih.2⟩⟩

theorem cutDigits_append {ds : List Nat} {rest : List Char} (hds : ∀ d ∈ ds, d < 10)
    (hrest : Stops (fun c => (decimalDigit? c).isSome) rest) :
    cutDigits (ds.map digitChar ++ rest) = (ds, rest) := by
  have hdigits : ∀ c ∈ ds.map digitChar, (decimalDigit? c).isSome :=
    List.forall_mem_map.mpr fun d hd => Option.isSome_of_eq_some (decimalDigit?_digitChar d (hds d hd))
  have hvalues : (ds.map digitChar).filterMap decimalDigit? = ds := by
    rw [List.filterMap_map]
    exact (List.filterMap_congr fun d hd => decimalDigit?_digitChar d (hds d hd)).trans List.filterMap_some
  rw [cutDigits, takeWhile_append_of_stops hdigits hrest, dropWhile_append_of_stops hdigits hrest, hvalues]

/-! ## Numbers -/

theorem denotes_digits (hbase : 2 ≤ base) (n : Nat) : Denotes base n ((digits base n).map digitChar) :=
  ⟨digits base n, digits_ne_nil base n, fun _ => lt_of_mem_digits hbase, ofDigits_digits hbase n, rfl⟩

theorem digitChar_eq_zero_iff : ∀ d < 16, digitChar d = '0' ↔ d = 0 := by
  decide

/-- A number has one text without zeros in front. -/
theorem isCanonical_iff (hbase : 2 ≤ base) (hbound : base ≤ 16) :
    IsCanonical base n s ↔ (digits base n).map digitChar = s := by
  have hzero {ds : List Nat} (hlt : ∀ d ∈ ds, d < base) :
      (ds.map digitChar).head? = some '0' ↔ ds.head? = some 0 := by
    cases ds with
    | nil => simp
    | cons d ds =>
        have hd : d < 16 := Nat.lt_of_lt_of_le (hlt d (List.mem_cons_self ..)) hbound
        simpa using digitChar_eq_zero_iff d hd
  constructor
  · rintro ⟨⟨ds, hne, hlt, rfl, rfl⟩, hhead⟩
    rw [digits_ofDigits hbase hne hlt fun h => ?_]
    have hsingle := hhead ((hzero hlt).mpr h)
    obtain ⟨d, rfl, hd⟩ := List.map_eq_singleton_iff.mp hsingle
    simpa using h
  · rintro rfl
    refine ⟨denotes_digits hbase n, fun h => ?_⟩
    rw [hzero fun _ => lt_of_mem_digits hbase] at h
    obtain rfl : n = 0 := by
      by_contra hn
      exact head?_digits_ne_zero hbase hn h
    rw [digits_of_lt (by omega)]
    rfl

theorem decimalDigits?_eq_some_iff {ds : List Nat} :
    decimalDigits? s = some ds ↔ ds ≠ [] ∧ (∀ d ∈ ds, d < 10) ∧ ds.map digitChar = s := by
  have hempty (h : ds.map digitChar = s) : s.isEmpty = true ↔ ds = [] := by
    rw [← h, List.isEmpty_iff, List.map_eq_nil_iff]
  rw [decimalDigits?, Option.ite_none_left_eq_some, mapM_decimalDigit?_eq_some_iff]
  constructor
  · rintro ⟨hs, hlt, hchars⟩
    exact ⟨fun hne => hs ((hempty hchars).mpr hne), hlt, hchars⟩
  · rintro ⟨hne, hlt, hchars⟩
    exact ⟨fun hs => hne ((hempty hchars).mp hs), hlt, hchars⟩

theorem readDecimal?_eq_some_iff : readDecimal? s = some n ↔ Denotes 10 n s := by
  rw [readDecimal?, Option.map_eq_some_iff]
  refine exists_congr fun ds => ?_
  rw [decimalDigits?_eq_some_iff, and_assoc, and_assoc]
  exact and_congr_right fun _ => and_congr_right fun _ => and_comm

/-- No digit is a plus sign. -/
theorem Denotes.head?_ne (h : Denotes 10 n s) : s.head? ≠ some '+' := by
  obtain ⟨ds, -, hlt, -, rfl⟩ := h
  have hplus : ∀ d < 10, digitChar d ≠ '+' := by decide
  intro hhead
  obtain ⟨d, hd, hchar⟩ := List.mem_map.mp (List.mem_of_head? hhead)
  exact hplus d (hlt d hd) hchar

/-- A number is written in digits, and maybe a plus sign. -/
theorem IsUnsigned.forall_mem {p : Char → Prop} (hdigit : ∀ d < 10, p (digitChar d)) (hplus : p '+')
    (h : IsUnsigned n s) : ∀ c ∈ s, p c := by
  have hdenotes : ∀ {t}, Denotes 10 n t → ∀ c ∈ t, p c := by
    rintro t ⟨ds, -, hlt, -, rfl⟩
    exact List.forall_mem_map.mpr fun d hd => hdigit d (hlt d hd)
  rcases h with h | ⟨digits, rfl, h⟩
  · exact hdenotes h
  · exact List.forall_mem_cons.mpr ⟨hplus, hdenotes h⟩

/-- What is read behind a plus sign or without one. -/
theorem isUnsigned_iff : IsUnsigned n s ↔ ∃ ds, unsignedDigits? s = some ds ∧ ofDigits 10 ds = n := by
  have hdenotes (t : List Char) : (∃ ds, decimalDigits? t = some ds ∧ ofDigits 10 ds = n) ↔ Denotes 10 n t := by
    rw [← readDecimal?_eq_some_iff, readDecimal?, Option.map_eq_some_iff]
  unfold unsignedDigits? IsUnsigned
  split
  · next digits =>
      rw [hdenotes]
      constructor
      · rintro (h | ⟨_, heq, h⟩)
        · exact absurd rfl h.head?_ne
        · cases heq
          exact h
      · exact fun h => Or.inr ⟨digits, rfl, h⟩
  · next hplus =>
      rw [hdenotes]
      refine or_iff_left ?_
      rintro ⟨digits, heq, -⟩
      exact hplus digits heq

theorem IsUnsigned.unique {m : Nat} (hm : IsUnsigned m s) (hn : IsUnsigned n s) : m = n := by
  obtain ⟨ds, hds, rfl⟩ := isUnsigned_iff.mp hm
  obtain ⟨es, hes, rfl⟩ := isUnsigned_iff.mp hn
  cases hds.symm.trans hes
  rfl

theorem lt_of_mem_unsignedDigits? {ds : List Nat} (h : unsignedDigits? s = some ds) : ∀ d ∈ ds, d < 10 := by
  unfold unsignedDigits? at h
  split at h
  · exact (decimalDigits?_eq_some_iff.mp h).2.1
  · exact (decimalDigits?_eq_some_iff.mp h).2.1

end Sdp.Numeral
