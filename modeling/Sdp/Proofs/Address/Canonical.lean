import Sdp.Address.Network
import Sdp.Proofs.Numeral.Digits
import Sdp.Proofs.Text.Pieces

/-!
# Addresses survive their canonical text

Main statement: `Address.read?_canonical`, the canonical text of an address is read as the address.
-/

namespace Sdp

open Numeral (decimal hex digitChar)

/-! ## Two marks in a row -/

namespace Text

theorem cutPair_append {mark : Char} {w : List Char} (hw : mark ∉ w) (s : List Char) :
    cutPair mark (w ++ s) = (cutPair mark s).map fun (before, after) => (w ++ before, after) := by
  induction w with
  | nil => simp
  | cons c w ih =>
      obtain ⟨hc, hw⟩ := not_or.mp (mt List.mem_cons.mpr hw)
      have hstep : cutPair mark (c :: (w ++ s)) =
          (cutPair mark (w ++ s)).map fun (before, after) => (c :: before, after) := by
        cases hs : w ++ s with
        | nil => rfl
        | cons d rest => rw [cutPair, if_neg fun h => hc h.1.symm]
      rw [List.cons_append, hstep, ih hw, Option.map_map]
      rfl

theorem cutPair_mark {mark c : Char} (hc : c ≠ mark) (s : List Char) :
    cutPair mark (mark :: c :: s) =
      (cutPair mark (c :: s)).map fun (before, after) => (mark :: before, after) := by
  rw [cutPair, if_neg fun h => hc h.2]

/-- Between pieces that are not empty there is never more than one mark. -/
theorem cutPair_intercalate_append {mark : Char} {ws : List (List Char)}
    (h : ∀ w ∈ ws, w ≠ [] ∧ mark ∉ w) (s : List Char) :
    cutPair mark ([mark].intercalate ws ++ s) =
      (cutPair mark s).map fun (before, after) => ([mark].intercalate ws ++ before, after) := by
  induction ws with
  | nil => simp
  | cons v ws ih =>
      obtain ⟨⟨-, hv⟩, hws⟩ := List.forall_mem_cons.mp h
      cases ws with
      | nil => simpa using cutPair_append hv s
      | cons w ws =>
          obtain ⟨⟨hne, hw⟩, -⟩ := List.forall_mem_cons.mp hws
          obtain ⟨c, w, rfl⟩ := List.exists_cons_of_ne_nil hne
          have hc : c ≠ mark := fun h => hw (h ▸ List.mem_cons_self ..)
          have hstart : [mark].intercalate ((c :: w) :: ws) = c :: [mark].intercalate (w :: ws) := by
            cases ws <;> simp
          -- Behind the first mark stands the next piece, so the two marks come later.
          have hnext := cutPair_mark hc ([mark].intercalate (w :: ws) ++ s)
          rw [← List.cons_append, ← hstart, ih hws, Option.map_map] at hnext
          rw [List.intercalate_cons_cons, List.append_assoc, List.append_assoc, cutPair_append hv,
            List.singleton_append, hnext, Option.map_map]
          congr 1
          funext ⟨before, after⟩
          simp

end Text

/-! ## Groups -/

namespace Address

/-- The pieces of a text of groups. -/
theorem forall_mem_joinGroups {p : Char → Prop} (hdigit : ∀ d < 16, p (digitChar d)) (hcolon : p ':')
    (groups : List UInt16) : ∀ c ∈ joinGroups groups, p c := by
  refine Text.forall_mem_intercalate hcolon fun w hw => ?_
  obtain ⟨g, -, rfl⟩ := List.mem_map.mp hw
  exact Numeral.forall_mem_hex hdigit _

theorem cutPair_joinGroups_append (groups : List UInt16) (s : List Char) :
    Text.cutPair ':' (joinGroups groups ++ s) =
      (Text.cutPair ':' s).map fun (before, after) => (joinGroups groups ++ before, after) := by
  refine Text.cutPair_intercalate_append (fun w hw => ?_) s
  obtain ⟨g, -, rfl⟩ := List.mem_map.mp hw
  exact ⟨Numeral.hex_ne_nil _, Numeral.not_mem_hex (by decide) _⟩

theorem readGroup?_hex (g : UInt16) : readGroup? (hex g.toNat) = some g := by
  have hlength : (hex g.toNat).length ≤ 4 := by
    rw [hex, List.length_map]
    exact Numeral.length_digits_le g.toNat_lt
  rw [readGroup?, if_pos hlength, Numeral.readHex?_hex, Option.map_some, UInt16.ofNat_toNat]

theorem readTail?_hex (g : UInt16) : readTail? (hex g.toNat) = some [g] := by
  have hpoint : '.' ∉ hex g.toNat := Numeral.not_mem_hex (by decide) _
  rw [readTail?, if_neg hpoint, readGroup?_hex, Option.map_some]

theorem readPieces?_hex {last : List Char → Option (List UInt16)}
    (hlast : ∀ g : UInt16, last (hex g.toNat) = some [g]) (groups : List UInt16) :
    readPieces? last (groups.map fun g => hex g.toNat) = some groups := by
  induction groups with
  | nil => rfl
  | cons g groups ih =>
      cases groups with
      | nil => exact hlast g
      | cons k groups =>
          simp only [List.map_cons] at ih ⊢
          simp [readPieces?, readGroup?_hex, ih]

theorem readSide?_joinGroups {last : List Char → Option (List UInt16)}
    (hlast : ∀ g : UInt16, last (hex g.toNat) = some [g]) (groups : List UInt16) :
    readSide? last (joinGroups groups) = some groups := by
  have hpieces : (if (joinGroups groups).isEmpty then [] else (joinGroups groups).splitOn ':') =
      groups.map fun g => hex g.toNat := by
    cases groups with
    | nil => rfl
    | cons g groups =>
        have hcolon : ∀ w ∈ (g :: groups).map fun g => hex g.toNat, ':' ∉ w := by
          intro w hw
          obtain ⟨k, -, rfl⟩ := List.mem_map.mp hw
          exact Numeral.not_mem_hex (by decide) _
        have hne : (joinGroups (g :: groups)).isEmpty = false := by
          simp [joinGroups, Text.intercalate_eq_nil_iff, Numeral.hex_ne_nil]
        rw [hne, if_neg Bool.false_ne_true, joinGroups, List.splitOn_intercalate ':' hcolon (by simp)]
  rw [readSide?, hpieces, readPieces?_hex hlast]

/-! ## The run of zero groups -/

/-- A run of zeros of that start and length stands among the groups. -/
def IsZeroRun (groups : List UInt16) (run : Nat × Nat) : Prop :=
  ∃ before after, groups = before ++ List.replicate run.2 0 ++ after ∧ before.length = run.1

theorem isZeroRun_zeroRun (groups : List UInt16) : IsZeroRun groups (zeroRun groups) := by
  unfold zeroRun
  -- Whatever the search keeps is a run, the first guess of no groups at all included.
  refine List.foldlRecOn _ _ ⟨[], groups, rfl, rfl⟩ fun best hbest i hi => ?_
  dsimp only
  split
  · have hzeros : (groups.drop i).takeWhile (· == 0) =
        List.replicate ((groups.drop i).takeWhile (· == 0)).length 0 :=
      List.eq_replicate_iff.mpr ⟨rfl, fun g hg => by simpa using List.mem_takeWhile_imp hg⟩
    refine ⟨groups.take i, (groups.drop i).dropWhile (· == 0), ?_, ?_⟩
    · rw [← hzeros, List.append_assoc, List.takeWhile_append_dropWhile, List.take_append_drop]
    · exact List.length_take_of_le (List.mem_range.mp hi).le
  · exact hbest

/-- A run of two zero groups or more stands out of the text, and any other text is that of all groups. -/
theorem canonical_v6 {groups : List UInt16} (h : groups.length = 8) :
    canonical (.v6 groups h) = joinGroups groups ∨
    ∃ before n after, groups = before ++ List.replicate n 0 ++ after ∧ 2 ≤ n ∧
      canonical (.v6 groups h) = joinGroups before ++ [':', ':'] ++ joinGroups after := by
  have hcanonical : canonical (.v6 groups h) =
      if (zeroRun groups).2 < 2 then joinGroups groups
      else joinGroups (groups.take (zeroRun groups).1) ++ [':', ':'] ++
        joinGroups (groups.drop ((zeroRun groups).1 + (zeroRun groups).2)) := rfl
  obtain ⟨before, after, hgroups, hbefore⟩ := isZeroRun_zeroRun groups
  generalize zeroRun groups = run at hcanonical hgroups hbefore
  by_cases hlength : run.2 < 2
  · exact Or.inl (hcanonical.trans (if_pos hlength))
  · have htake : groups.take run.1 = before := by
      rw [hgroups, List.append_assoc, List.take_left' hbefore]
    have hdrop : groups.drop (run.1 + run.2) = after := by
      rw [hgroups, List.drop_left' (by rw [List.length_append, List.length_replicate, hbefore])]
    rw [if_neg hlength, htake, hdrop] at hcanonical
    exact Or.inr ⟨before, run.2, after, hgroups, Nat.not_lt.mp hlength, hcanonical⟩

theorem readGroups?_canonical (groups : List UInt16) (h : groups.length = 8) :
    readGroups? (canonical (.v6 groups h)) = some groups := by
  rcases canonical_v6 h with hcanonical | ⟨before, n, after, hgroups, hn, hcanonical⟩
  · have hcut : Text.cutPair ':' (joinGroups groups) = none := by
      simpa [Text.cutPair] using cutPair_joinGroups_append groups []
    rw [hcanonical, readGroups?, hcut]
    exact readSide?_joinGroups readTail?_hex groups
  · have hcut : Text.cutPair ':' (joinGroups before ++ [':', ':'] ++ joinGroups after) =
        some (joinGroups before, joinGroups after) := by
      rw [List.append_assoc, cutPair_joinGroups_append]
      simp [Text.cutPair]
    have hhigh : readSide? (fun p => (readGroup? p).map ([·])) (joinGroups before) = some before :=
      readSide?_joinGroups (fun g => by rw [readGroup?_hex, Option.map_some]) before
    have hlow := readSide?_joinGroups readTail?_hex after
    have hlengths : before.length + n + after.length = 8 := by
      rw [← h, hgroups, List.length_append, List.length_append, List.length_replicate]
    have hshort : before.length + after.length < 8 := by omega
    have hzeros : 8 - before.length - after.length = n := by omega
    rw [hcanonical, readGroups?, hcut]
    simp only [hhigh, hlow, Option.bind_eq_bind, Option.bind_some, if_pos hshort, hzeros, ← hgroups]
    rfl

/-! ## Addresses -/

theorem readOctet?_decimal (n : UInt8) : readOctet? (decimal n.toNat) = some n := by
  have hlength : (decimal n.toNat).length ≤ 3 := by
    rw [decimal, List.length_map]
    exact Numeral.length_digits_le (Nat.lt_trans n.toNat_lt (by decide))
  rw [readOctet?, if_pos ⟨hlength, Numeral.head?_decimal _⟩, Numeral.readDecimal?_decimal, Option.bind_some,
    if_pos n.toNat_lt, UInt8.ofNat_toNat]

theorem readV4?_canonical (a b c d : UInt8) : readV4? (canonical (.v4 a b c d)) = some (a, b, c, d) := by
  have hpoint : ∀ w ∈ [a, b, c, d].map fun n => decimal n.toNat, '.' ∉ w := by
    intro w hw
    obtain ⟨n, -, rfl⟩ := List.mem_map.mp hw
    exact Numeral.not_mem_decimal (by decide) _
  unfold readV4? canonical
  rw [List.splitOn_intercalate '.' hpoint (by simp)]
  simp [readOctet?_decimal]

/-- An address of version 6 is written in digits and colons. -/
theorem forall_mem_canonical_v6 {p : Char → Prop} (hdigit : ∀ d < 16, p (digitChar d)) (hcolon : p ':')
    (groups : List UInt16) (h : groups.length = 8) : ∀ c ∈ canonical (.v6 groups h), p c := by
  have hjoin := forall_mem_joinGroups hdigit hcolon
  unfold canonical
  dsimp only
  split
  · exact hjoin groups
  · intro c hc
    rcases List.mem_append.mp hc with hc | hc
    · rcases List.mem_append.mp hc with hc | hc
      · exact hjoin _ c hc
      · have : c = ':' := by simpa using hc
        rwa [this]
    · exact hjoin _ c hc

/-- An address is written in digits, colons and points. -/
theorem forall_mem_canonical {p : Char → Prop} (hdigit : ∀ d < 16, p (digitChar d)) (hcolon : p ':')
    (hpoint : p '.') (a : Address) : ∀ c ∈ a.canonical, p c := by
  cases a with
  | v4 a b c d =>
      refine Text.forall_mem_intercalate hpoint fun w hw => ?_
      obtain ⟨n, -, rfl⟩ := List.mem_map.mp hw
      exact Numeral.forall_mem_decimal (fun d hd => hdigit d (by omega)) _
  | v6 groups h => exact forall_mem_canonical_v6 hdigit hcolon groups h

/-- The canonical text of an address is read as the address. -/
theorem read?_canonical (a : Address) : read? a.canonical = some a := by
  cases a with
  | v4 a b c d => rw [read?, readV4?_canonical]
  | v6 groups h =>
      have hpoint : '.' ∉ canonical (.v6 groups h) := fun hp =>
        forall_mem_canonical_v6 (p := (· ≠ '.')) (by decide) (by decide) groups h '.' hp rfl
      have hv4 : readV4? (canonical (.v6 groups h)) = none := by
        rw [readV4?, List.splitOn_eq_singleton hpoint]
      rw [read?, hv4]
      simp only [readGroups?_canonical, Option.bind_some, dif_pos h]

theorem canonical_injective : Function.Injective canonical := by
  intro a b h
  have hread := read?_canonical a
  rw [h, read?_canonical] at hread
  exact (Option.some.inj hread).symm

/-- There is a point in the text of an address of version 4, and none in one of version 6. -/
theorem point_mem_canonical_iff (a : Address) : '.' ∈ a.canonical ↔ a.family = .ip4 := by
  cases a with
  | v4 a b c d => simp [canonical, family]
  | v6 groups h =>
      have hpoint : ∀ c ∈ canonical (.v6 groups h), c ≠ '.' :=
        forall_mem_canonical_v6 (by decide) (by decide) groups h
      simpa [family] using fun hp => hpoint '.' hp rfl

theorem isWord_canonical (a : Address) : Text.IsWord a.canonical := by
  refine ⟨fun h => ?_, forall_mem_canonical (by decide) (by decide) (by decide) a⟩
  have hread := read?_canonical a
  rw [h] at hread
  cases hread

end Address

namespace Network

theorem readAddress_eq_ok_iff {f : Family} {s : List Char} {a : Address} :
    readAddress f s = .ok a ↔ Address.read? s = some a ∧ a.family = f := by
  unfold readAddress
  cases Address.read? s with
  | none => simp
  | some b =>
      by_cases hf : b.family = f
      · simp only [if_pos hf, Except.ok.injEq, Option.some.injEq]
        exact ⟨fun h => ⟨h, h ▸ hf⟩, And.left⟩
      · simp only [if_neg hf, Option.some.injEq, reduceCtorEq, false_iff, not_and]
        exact fun h => h ▸ hf

theorem readAddress_eq_error {f : Family} {s : List Char} {e : Fault Refusal} (h : readAddress f s = .error e) :
    e = fault .address s ∨ e = fault .family s := by
  unfold readAddress at h
  split at h
  · cases h
    exact Or.inl rfl
  · split at h
    · cases h
    · cases h
      exact Or.inr rfl

theorem text_of_readAddress {f : Family} {s : List Char} {e : Fault Refusal} (h : readAddress f s = .error e) :
    e.text = .ofList s := by
  rcases readAddress_eq_error h with rfl | rfl
  · rfl
  · rfl

theorem readAddress_canonical (a : Address) : readAddress a.family a.canonical = .ok a := by
  rw [readAddress, Address.read?_canonical]
  exact if_pos rfl

/-- The text of an address suggests its family. -/
theorem readAnyAddress_canonical (a : Address) : readAnyAddress a.canonical = .ok a := by
  have hfamily : (if '.' ∈ a.canonical then Family.ip4 else .ip6) = a.family := by
    rw [if_congr a.point_mem_canonical_iff rfl rfl]
    cases a <;> rfl
  rw [readAnyAddress, hfamily, readAddress_canonical]

end Network

end Sdp
