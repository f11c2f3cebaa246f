import Sdp.Address.Written
import Sdp.Proofs.Address.Canonical
import Sdp.Proofs.Numeral.Grammar

/-!
# The canonical text of an address

Main statements: `Address.written_iff`, the rules allow one text for each address, and
`Network.canonical_faithful`, that text is read as the address wherever addresses are read.
-/

namespace Sdp

namespace Address

/-! ## Runs of zero groups -/

/-- The number of zero groups from a position on. -/
def zerosFrom (groups : List UInt16) (i : Nat) : Nat :=
  ((groups.drop i).takeWhile (· == 0)).length

theorem replicate_prefix_iff {n : Nat} {groups : List UInt16} :
    List.replicate n 0 <+: groups ↔ n ≤ (groups.takeWhile (· == 0)).length := by
  induction groups generalizing n with
  | nil => simp
  | cons g groups ih =>
      cases n with
      | zero => simp
      | succ n =>
          rw [List.replicate_succ, List.cons_prefix_cons, ih, List.takeWhile_cons]
          by_cases hg : g = 0
          · simp [hg]
          · simp [hg, Ne.symm hg]

theorem zerosAt_iff {groups : List UInt16} {start length : Nat} :
    ZerosAt groups start length ↔ length ≤ zerosFrom groups start :=
  replicate_prefix_iff

/-- The search up to position `n`. -/
def bestBelow (groups : List UInt16) (n : Nat) : Nat × Nat :=
  (List.range n).foldl
    (fun best i => if zerosFrom groups i > best.2 then (i, zerosFrom groups i) else best) (0, 0)

theorem bestBelow_succ (groups : List UInt16) (n : Nat) :
    bestBelow groups (n + 1) =
      if zerosFrom groups n > (bestBelow groups n).2 then (n, zerosFrom groups n)
      else bestBelow groups n := by
  rw [bestBelow, List.range_succ, List.foldl_append]
  rfl

/-- What the search has found is a run, none before it is as long, and none further on is longer. -/
structure Found (groups : List UInt16) (n : Nat) (best : Nat × Nat) : Prop where
  isRun : best.2 ≤ zerosFrom groups best.1
  before : ∀ i < best.1, zerosFrom groups i < best.2
  below : ∀ i < n, zerosFrom groups i ≤ best.2

theorem found_bestBelow (groups : List UInt16) (n : Nat) : Found groups n (bestBelow groups n) := by
  induction n with
  | zero => exact ⟨Nat.zero_le _, nofun, nofun⟩
  | succ n ih =>
      rw [bestBelow_succ]
      split
      · next hlonger =>
          refine ⟨Nat.le_refl _, fun i hi => ?_, fun i hi => ?_⟩
          · exact Nat.lt_of_le_of_lt (ih.below i hi) hlonger
          · rcases Nat.lt_succ_iff_lt_or_eq.mp hi with hi | rfl
            · exact Nat.le_of_lt (Nat.lt_of_le_of_lt (ih.below i hi) hlonger)
            · exact Nat.le_refl _
      · next hshort =>
          refine ⟨ih.isRun, ih.before, fun i hi => ?_⟩
          rcases Nat.lt_succ_iff_lt_or_eq.mp hi with hi | rfl
          · exact ih.below i hi
          · exact Nat.not_lt.mp hshort

theorem found_zeroRun (groups : List UInt16) : Found groups groups.length (zeroRun groups) :=
  found_bestBelow groups groups.length

theorem zerosAt_zeroRun (groups : List UInt16) :
    ZerosAt groups (zeroRun groups).1 (zeroRun groups).2 :=
  zerosAt_iff.mpr (found_zeroRun groups).isRun

theorem le_zeroRun {groups : List UInt16} {start length : Nat} (h : ZerosAt groups start length) :
    length ≤ (zeroRun groups).2 := by
  have hle := zerosAt_iff.mp h
  rcases Nat.lt_or_ge start groups.length with hstart | hstart
  · exact Nat.le_trans hle ((found_zeroRun groups).below start hstart)
  · -- There is no group left to be zero.
    rw [zerosFrom, List.drop_eq_nil_of_le hstart] at hle
    exact Nat.le_trans hle (Nat.zero_le _)

theorem isLongestRun_zeroRun {groups : List UInt16} (h : 2 ≤ (zeroRun groups).2) :
    IsLongestRun groups (zeroRun groups).1 (zeroRun groups).2 where
  zeros := zerosAt_zeroRun groups
  two_le := h
  longest _ _ := le_zeroRun
  first s hs := by
    by_contra hlt
    have hbefore := (found_zeroRun groups).before s (Nat.not_le.mp hlt)
    exact absurd (zerosAt_iff.mp hs) (Nat.not_le.mpr hbefore)

theorem IsLongestRun.unique {groups : List UInt16} {s l s' l' : Nat} (h : IsLongestRun groups s l)
    (h' : IsLongestRun groups s' l') : s = s' ∧ l = l' := by
  obtain rfl : l = l' := Nat.le_antisymm (h'.longest s l h.zeros) (h.longest s' l' h'.zeros)
  exact ⟨Nat.le_antisymm (h.first s' h'.zeros) (h'.first s h.zeros), rfl⟩

/-! ## Texts -/

theorem isJoined_iff {base : Nat} {mark : Char} {numbers : List Nat} {s : List Char} (hbase : 2 ≤ base)
    (hbound : base ≤ 16) :
    IsJoined base mark numbers s ↔
      [mark].intercalate (numbers.map fun n => (Numeral.digits base n).map Numeral.digitChar) = s := by
  have hpieces {ws : List (List Char)} : List.Forall₂ (Numeral.IsCanonical base) numbers ws ↔
      numbers.map (fun n => (Numeral.digits base n).map Numeral.digitChar) = ws :=
    calc List.Forall₂ (Numeral.IsCanonical base) numbers ws
      _ ↔ List.Forall₂ (fun n w => (Numeral.digits base n).map Numeral.digitChar = w) numbers ws :=
        ⟨.imp fun _ _ => (Numeral.isCanonical_iff hbase hbound).mp,
          .imp fun _ _ => (Numeral.isCanonical_iff hbase hbound).mpr⟩
      _ ↔ _ := by rw [← List.forall₂_map_left_iff, List.forall₂_eq_eq_eq]
  unfold IsJoined
  simp only [hpieces]
  exact exists_eq_left'

theorem isJoined_groups_iff {groups : List UInt16} {s : List Char} :
    IsJoined 16 ':' (groups.map UInt16.toNat) s ↔ joinGroups groups = s := by
  rw [isJoined_iff (by decide) (by decide), List.map_map]
  rfl

/-- The rules allow one text for each address, and that is its canonical text. -/
theorem written_iff {a : Address} {s : List Char} : a.Written s ↔ s = a.canonical := by
  cases a with
  | v4 a b c d =>
      constructor
      · rintro ⟨h⟩
        exact ((isJoined_iff (by decide) (by decide)).mp h).symm
      · rintro rfl
        exact .v4 ((isJoined_iff (by decide) (by decide)).mpr rfl)
  | v6 groups h =>
      have hcanonical : canonical (.v6 groups h) =
          if (zeroRun groups).2 < 2 then joinGroups groups
          else joinGroups (groups.take (zeroRun groups).1) ++ [':', ':'] ++
            joinGroups (groups.drop ((zeroRun groups).1 + (zeroRun groups).2)) := rfl
      constructor
      · intro hs
        cases hs with
        | full short hs =>
            have hrun := short _ _ (zerosAt_zeroRun groups)
            rw [hcanonical, if_pos hrun]
            exact (isJoined_groups_iff.mp hs).symm
        | compressed run hhigh hlow =>
            have hlong : 2 ≤ (zeroRun groups).2 := Nat.le_trans run.two_le (le_zeroRun run.zeros)
            obtain ⟨rfl, rfl⟩ := run.unique (isLongestRun_zeroRun hlong)
            rw [hcanonical, if_neg (Nat.not_lt.mpr hlong), isJoined_groups_iff.mp hhigh,
              isJoined_groups_iff.mp hlow]
      · rintro rfl
        rw [hcanonical]
        split
        · next hshort =>
            exact .full (fun _ _ hzeros => Nat.lt_of_le_of_lt (le_zeroRun hzeros) hshort)
              (isJoined_groups_iff.mpr rfl)
        · next hlong =>
            exact .compressed (isLongestRun_zeroRun (Nat.not_lt.mp hlong))
              (isJoined_groups_iff.mpr rfl) (isJoined_groups_iff.mpr rfl)

end Address

namespace Network

/-- The canonical text of an address is read as the address, with its family or without. It stands for
all other texts of the address: two texts are read alike just if their addresses are written alike. -/
theorem canonical_faithful :
    (∀ (a : Address) (s : List Char), a.Written s ↔ s = a.canonical) ∧
    (∀ a : Address, '.' ∈ a.canonical ↔ a.family = .ip4) ∧
    (∀ a : Address, readAnyAddress a.canonical = .ok a ∧ readAddress a.family a.canonical = .ok a) ∧
    (∀ f s a, readAddress f s = .ok a → readAddress f a.canonical = .ok a) ∧
    ∀ f g s t a b, readAddress f s = .ok a → readAddress g t = .ok b →
      (readAddress f s = readAddress g t ↔ a.canonical = b.canonical) := by
  refine ⟨fun a s => Address.written_iff, Address.point_mem_canonical_iff, fun a => ?_, ?_, ?_⟩
  · exact ⟨readAnyAddress_canonical a, readAddress_canonical a⟩
  · intro f s a h
    obtain ⟨-, rfl⟩ := readAddress_eq_ok_iff.mp h
    exact readAddress_canonical a
  · intro f g s t a b ha hb
    rw [ha, hb, Except.ok.injEq]
    exact Address.canonical_injective.eq_iff.symm

/-- An address of version 4 at the end, capitals and zeros in front, and two runs of equal length. -/
theorem canonical_faithful_of_mapped :
    let a : Address := .v6 [0, 0, 1, 0, 0, 0xffff, 0x102, 0x304] rfl
    let s := "0:0:1::FFFF:1.2.3.4".toList
    let t := "::0001:0:0:ffff:102:304".toList
    readAddress .ip6 s = .ok a ∧ readAddress .ip6 t = .ok a ∧
      a.canonical = "::1:0:0:ffff:102:304".toList ∧ readAddress .ip6 a.canonical = .ok a ∧
      (readAddress .ip6 s = readAddress .ip6 t ↔ a.canonical = a.canonical) := by
  intro a s t
  have hs : readAddress .ip6 s = .ok a := by decide +kernel
  have ht : readAddress .ip6 t = .ok a := by decide +kernel
  obtain ⟨-, -, -, hagain, halike⟩ := canonical_faithful
  exact ⟨hs, ht, by decide +kernel, hagain .ip6 s a hs, halike .ip6 .ip6 s t a a hs ht⟩

end Network

end Sdp
