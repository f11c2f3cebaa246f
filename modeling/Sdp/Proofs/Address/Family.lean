import Sdp.Proofs.Address.Canonical

/-!
# Families of addresses

What a text is written with decides which family it can be an address of. Main statements:
`Address.written_with_of_read?` and `Network.readAnyAddress_eq_ok_iff`.
-/

namespace Sdp

open Numeral (decimalDigit? hexDigit?)

variable {s : List Char}

/-! ## Pieces -/

namespace Text

theorem eq_of_cutPair_eq_some {mark : Char} {before after : List Char}
    (h : cutPair mark s = some (before, after)) : s = before ++ mark :: mark :: after := by
  fun_induction cutPair mark s generalizing before after with
  | case1 c d rest hmarks =>
      cases h
      rw [hmarks.1, hmarks.2]
      rfl
  | case2 c d rest hmarks ih =>
      obtain ⟨⟨b, a⟩, hba, hcut⟩ := Option.map_eq_some_iff.mp h
      cases hcut
      exact congrArg (c :: ·) (ih hba)
  | case3 s hshort => cases h

/-- What is true of a separator and of the characters between is true of all characters. -/
theorem forall_mem_of_splitOn {q : Char → Prop} {x : Char} (hx : q x) (h : ∀ w ∈ s.splitOn x, ∀ c ∈ w, q c) :
    ∀ c ∈ s, q c := by
  have hjoined : [x].intercalate (s.splitOn x) = s := List.intercalate_splitOn x
  rw [← hjoined]
  exact forall_mem_intercalate hx h

end Text

namespace Numeral

theorem forall_mem_of_mapM {digit? : Char → Option Nat} {ds : List Nat} (h : s.mapM digit? = some ds) :
    ∀ c ∈ s, (digit? c).isSome := by
  induction s generalizing ds with
  | nil => exact List.forall_mem_nil _
  | cons c s ih =>
      rw [List.mapM_cons] at h
      obtain ⟨d, hd, h⟩ := Option.bind_eq_some_iff.mp h
      obtain ⟨es, hes, -⟩ := Option.bind_eq_some_iff.mp h
      exact List.forall_mem_cons.mpr ⟨Option.isSome_of_eq_some hd, ih hes⟩

theorem isSome_hexDigit?_of_decimalDigit? {c : Char} (h : (decimalDigit? c).isSome) : (hexDigit? c).isSome := by
  unfold decimalDigit? at h
  split at h
  · next hc =>
      rw [hexDigit?, if_pos hc]
      rfl
  · cases h

theorem forall_mem_of_readDecimal? {n : Nat} (h : readDecimal? s = some n) : ∀ c ∈ s, (hexDigit? c).isSome := by
  obtain ⟨ds, hds, -⟩ := Option.map_eq_some_iff.mp h
  obtain ⟨-, hds⟩ := Option.ite_none_left_eq_some.mp hds
  exact fun c hc => isSome_hexDigit?_of_decimalDigit? (forall_mem_of_mapM hds c hc)

theorem forall_mem_of_readHex? {n : Nat} (h : readHex? s = some n) : ∀ c ∈ s, (hexDigit? c).isSome := by
  unfold readHex? at h
  split at h
  · cases h
  · obtain ⟨ds, hds, -⟩ := Option.map_eq_some_iff.mp h
    exact forall_mem_of_mapM hds

end Numeral

/-! ## Addresses -/

namespace Address

/-- The characters that addresses are written with. -/
def IsAddressChar (c : Char) : Prop :=
  c = '.' ∨ c = ':' ∨ (hexDigit? c).isSome

theorem isAddressChar_of_digits (h : ∀ c ∈ s, (hexDigit? c).isSome) : ∀ c ∈ s, IsAddressChar c :=
  fun c hc => Or.inr (Or.inr (h c hc))

theorem forall_mem_of_readOctet? {n : UInt8} (h : readOctet? s = some n) : ∀ c ∈ s, IsAddressChar c := by
  unfold readOctet? at h
  split at h
  · obtain ⟨m, hm, -⟩ := Option.bind_eq_some_iff.mp h
    exact isAddressChar_of_digits (Numeral.forall_mem_of_readDecimal? hm)
  · cases h

theorem readV4?_eq_some {q : UInt8 × UInt8 × UInt8 × UInt8} (h : readV4? s = some q) :
    ∃ a b c d, s.splitOn '.' = [a, b, c, d] ∧ readOctet? a = some q.1 ∧ readOctet? b = some q.2.1 ∧
      readOctet? c = some q.2.2.1 ∧ readOctet? d = some q.2.2.2 := by
  unfold readV4? at h
  split at h
  · next a b c d hs =>
      simp only [bind, Option.bind_eq_some_iff, pure, Option.some.injEq] at h
      obtain ⟨k, hk, l, hl, m, hm, n, hn, rfl⟩ := h
      exact ⟨a, b, c, d, hs, hk, hl, hm, hn⟩
  · cases h

theorem forall_mem_of_readV4? {q : UInt8 × UInt8 × UInt8 × UInt8} (h : readV4? s = some q) :
    ∀ c ∈ s, IsAddressChar c := by
  obtain ⟨a, b, c, d, hs, ha, hb, hc, hd⟩ := readV4?_eq_some h
  refine Text.forall_mem_of_splitOn (Or.inl rfl) (x := '.') ?_
  simp only [hs, List.forall_mem_cons]
  exact ⟨forall_mem_of_readOctet? ha, forall_mem_of_readOctet? hb, forall_mem_of_readOctet? hc,
    forall_mem_of_readOctet? hd, List.forall_mem_nil _⟩

theorem point_mem_of_readV4? {q : UInt8 × UInt8 × UInt8 × UInt8} (h : readV4? s = some q) : '.' ∈ s := by
  obtain ⟨a, b, c, d, hs, -⟩ := readV4?_eq_some h
  have hjoined : ['.'].intercalate (s.splitOn '.') = s := List.intercalate_splitOn '.'
  rw [← hjoined, hs]
  simp [List.intercalate_cons_cons]

theorem forall_mem_of_readGroup? {g : UInt16} (h : readGroup? s = some g) : ∀ c ∈ s, IsAddressChar c := by
  unfold readGroup? at h
  split at h
  · obtain ⟨n, hn, -⟩ := Option.map_eq_some_iff.mp h
    exact isAddressChar_of_digits (Numeral.forall_mem_of_readHex? hn)
  · cases h

theorem forall_mem_of_readTail? {groups : List UInt16} (h : readTail? s = some groups) :
    ∀ c ∈ s, IsAddressChar c := by
  unfold readTail? at h
  split at h
  · obtain ⟨q, hq, -⟩ := Option.map_eq_some_iff.mp h
    exact forall_mem_of_readV4? hq
  · obtain ⟨g, hg, -⟩ := Option.map_eq_some_iff.mp h
    exact forall_mem_of_readGroup? hg

section Groups

variable {last : List Char → Option (List UInt16)} {groups : List UInt16}

theorem forall_mem_of_readPieces? (hlast : ∀ w gs, last w = some gs → ∀ c ∈ w, IsAddressChar c)
    {pieces : List (List Char)} (h : readPieces? last pieces = some groups) :
    ∀ w ∈ pieces, ∀ c ∈ w, IsAddressChar c := by
  fun_induction readPieces? last pieces generalizing groups with
  | case1 => exact List.forall_mem_nil _
  | case2 s => exact List.forall_mem_singleton.mpr (hlast s groups h)
  | case3 s rest hrest ih =>
      obtain ⟨g, hg, h⟩ := Option.bind_eq_some_iff.mp h
      obtain ⟨gs, hgs, -⟩ := Option.bind_eq_some_iff.mp h
      exact List.forall_mem_cons.mpr ⟨forall_mem_of_readGroup? hg, ih hgs⟩

theorem forall_mem_of_readSide? (hlast : ∀ w gs, last w = some gs → ∀ c ∈ w, IsAddressChar c)
    (h : readSide? last s = some groups) : ∀ c ∈ s, IsAddressChar c := by
  unfold readSide? at h
  split at h
  · next hempty =>
      rw [List.isEmpty_iff.mp hempty]
      exact List.forall_mem_nil _
  · exact Text.forall_mem_of_splitOn (Or.inr (Or.inl rfl)) (forall_mem_of_readPieces? hlast h)

theorem forall_mem_of_readGroups? (h : readGroups? s = some groups) : ∀ c ∈ s, IsAddressChar c := by
  unfold readGroups? at h
  split at h
  · exact forall_mem_of_readSide? (fun _ _ => forall_mem_of_readTail?) h
  · next left right hcut =>
      obtain ⟨high, hhigh, h⟩ := Option.bind_eq_some_iff.mp h
      obtain ⟨low, hlow, -⟩ := Option.bind_eq_some_iff.mp h
      have hgroup (w : List Char) (gs : List UInt16) (hw : (readGroup? w).map ([·]) = some gs) :
          ∀ c ∈ w, IsAddressChar c := by
        obtain ⟨g, hg, -⟩ := Option.map_eq_some_iff.mp hw
        exact forall_mem_of_readGroup? hg
      have hcolon : IsAddressChar ':' := Or.inr (Or.inl rfl)
      rw [Text.eq_of_cutPair_eq_some hcut]
      refine List.forall_mem_append.mpr ⟨forall_mem_of_readSide? hgroup hhigh, ?_⟩
      exact List.forall_mem_cons.mpr ⟨hcolon, List.forall_mem_cons.mpr
        ⟨hcolon, forall_mem_of_readSide? (fun _ _ => forall_mem_of_readTail?) hlow⟩⟩

end Groups

/-- An address is written with digits, colons and points, and one of version 4 has a point. -/
theorem written_with_of_read? {a : Address} (h : read? s = some a) :
    (∀ c ∈ s, IsAddressChar c) ∧ (a.family = .ip4 → '.' ∈ s) := by
  unfold read? at h
  split at h
  · next q hq =>
      exact ⟨forall_mem_of_readV4? hq, fun _ => point_mem_of_readV4? hq⟩
  · obtain ⟨groups, hgroups, h⟩ := Option.bind_eq_some_iff.mp h
    refine ⟨forall_mem_of_readGroups? hgroups, fun hfamily => ?_⟩
    split at h
    · cases h
      cases hfamily
    · cases h

end Address

/-! ## Families -/

namespace Network

variable {f g : Family} {a b : Address}

/-- No text is an address of both families. -/
theorem readAddress_unique (ha : readAddress f s = .ok a) (hb : readAddress g s = .ok b) : f = g := by
  obtain ⟨hreada, rfl⟩ := readAddress_eq_ok_iff.mp ha
  obtain ⟨hreadb, rfl⟩ := readAddress_eq_ok_iff.mp hb
  rw [Option.some.inj (hreada.symm.trans hreadb)]

theorem isAddressChar_of_readAddress (h : readAddress f s = .ok a) : ∀ c ∈ s, Address.IsAddressChar c :=
  (Address.written_with_of_read? (readAddress_eq_ok_iff.mp h).1).1

/-- Without a family the text is read with one, except that a point rules out version 6. -/
theorem readAnyAddress_eq_ok_iff :
    readAnyAddress s = .ok a ↔ ∃ f, readAddress f s = .ok a ∧ ¬ (f = .ip6 ∧ '.' ∈ s) := by
  unfold readAnyAddress
  by_cases hpoint : '.' ∈ s
  · rw [if_pos hpoint]
    constructor
    · exact fun h => ⟨.ip4, h, fun h6 => nomatch h6.1⟩
    · rintro ⟨f, h, h6⟩
      cases f with
      | ip4 => exact h
      | ip6 => exact absurd ⟨rfl, hpoint⟩ h6
  · rw [if_neg hpoint]
    constructor
    · exact fun h => ⟨.ip6, h, fun h6 => hpoint h6.2⟩
    · rintro ⟨f, h, -⟩
      cases f with
      | ip4 =>
          obtain ⟨hread, hfamily⟩ := readAddress_eq_ok_iff.mp h
          exact absurd ((Address.written_with_of_read? hread).2 hfamily) hpoint
      | ip6 => exact h

end Network

end Sdp
