import Sdp.Attribute.Addressed
import Sdp.Proofs.Address.Family
import Sdp.Proofs.Attribute.Grammar

/-!
# Addresses with and without a family

Main statement: `Network.readAnyAddress_agrees`. In a control port the family of an address is given, in
a candidate its text decides, and the two agree on every text but version 6 with a point.
-/

namespace Sdp

open Text (words)

variable {t value : List Char}

/-! ## Candidates -/

namespace Candidate

variable {tokens : List (List Char)} {i : Nat}

theorem forall_pairKept_set_iff {name : List Char} (h : ∀ p ∈ pairs tokens, PairKept p)
    (hname : tokens[2 * i]? = some name) (hi : 2 * i + 1 < tokens.length) :
    (∀ p ∈ pairs (tokens.set (2 * i + 1) t), PairKept p) ↔ PairKept (name, t) := by
  constructor
  · intro hset
    refine hset (name, t) (List.mem_of_getElem? (i := i) (getElem?_pairs_eq_some_iff.mpr ⟨?_, ?_⟩))
    · rw [List.getElem?_set_ne (by omega), hname]
    · rw [List.getElem?_set_self hi]
  · intro hnew p hp
    obtain ⟨j, hj⟩ := List.mem_iff_getElem?.mp hp
    obtain ⟨hfirst, hsecond⟩ := getElem?_pairs_eq_some_iff.mp hj
    rw [List.getElem?_set_ne (by omega)] at hfirst
    by_cases hij : i = j
    · subst hij
      rw [List.getElem?_set_self hi] at hsecond
      obtain rfl : name = p.1 := Option.some.inj (hname.symm.trans hfirst)
      obtain rfl : t = p.2 := Option.some.inj hsecond
      exact hnew
    · rw [List.getElem?_set_ne (by omega)] at hsecond
      exact h p (List.mem_of_getElem? (getElem?_pairs_eq_some_iff.mpr ⟨hfirst, hsecond⟩))

theorem pairKept_remoteAddress_iff {name : List Char} (hname : Extension.remoteAddress.IsNamed name) :
    PairKept (name, t) ↔ ∃ a, IsAddress t a := by
  constructor
  · rintro ⟨e, hnamed, a, ha⟩
    obtain rfl : e = .remoteAddress := hnamed.unique hname
    exact ⟨a, ha⟩
  · rintro ⟨a, ha⟩
    exact ⟨.remoteAddress, hname, a, ha⟩

/-- In the place of an address everything that can be read without a family is accepted. -/
theorem Addressed.exists_read_iff (h : Addressed t value) :
    (∃ a, Attribute.read .candidate value = .ok a) ↔ ∃ a, Network.readAnyAddress t = .ok a := by
  obtain ⟨candidate, i, hcandidate, hplace, hi, hwords⟩ := h
  obtain ⟨hlength, hfront, hpairs⟩ := exists_read_eq_ok_iff.mp (exists_map_eq_ok_iff.mp hcandidate)
  rw [Attribute.read, exists_map_eq_ok_iff, exists_read_eq_ok_iff, hwords, List.length_set,
    and_iff_right hlength, List.take_set, List.drop_set]
  cases hplace with
  | own =>
      have hrule : mandatoryRules[4]? = some fun w => ∃ a, IsAddress w a := rfl
      rw [if_pos (by decide), and_iff_left hpairs]
      exact kept_set_iff hfront hrule t
  | @remote i name hname hremote =>
      have hplace : 9 + 2 * i - mandatoryTokens = 2 * i + 1 := by
        rw [mandatoryTokens]
        omega
      rw [if_neg (by rw [mandatoryTokens]; omega), List.set_eq_of_length_le
        (by rw [List.length_take, mandatoryTokens]; omega), and_iff_right hfront, hplace]
      refine (forall_pairKept_set_iff hpairs ?_ ?_).trans (pairKept_remoteAddress_iff hremote)
      · rw [List.getElem?_drop]
        exact hname
      · rw [List.length_drop, mandatoryTokens]
        omega

end Candidate

/-! ## Control ports -/

namespace Rtcp

theorem read_eq_ok_iff {r : Rtcp} :
    read value = .ok r ↔ ∃ port network family address, words value = [port, network, family, address] ∧
      Quantity.rtcpPort.read port = .ok r.port ∧ Network.readType network = .ok () ∧
      Network.readFamily family = .ok r.family ∧ Network.readAddress r.family address = .ok r.address := by
  obtain ⟨n, f, a⟩ := r
  constructor
  · intro h
    unfold read at h
    split at h
    · next port network family address hwords =>
        obtain ⟨m, hm, h⟩ := bind_eq_ok_iff.mp h
        obtain ⟨⟨⟩, hnetwork, h⟩ := bind_eq_ok_iff.mp h
        obtain ⟨g, hg, h⟩ := bind_eq_ok_iff.mp h
        obtain ⟨b, hb, h⟩ := bind_eq_ok_iff.mp h
        cases h
        exact ⟨port, network, family, address, hwords, hm, widen_eq_ok_iff.mp hnetwork,
          widen_eq_ok_iff.mp hg, widen_eq_ok_iff.mp hb⟩
    · cases h
  · rintro ⟨port, network, family, address, hwords, hport, hnetwork, hfamily, haddress⟩
    unfold read
    rw [hwords]
    refine bind_eq_ok_iff.mpr ⟨n, hport, bind_eq_ok_iff.mpr ⟨(), widen_eq_ok_iff.mpr hnetwork, ?_⟩⟩
    refine bind_eq_ok_iff.mpr ⟨f, widen_eq_ok_iff.mpr hfamily, ?_⟩
    exact bind_eq_ok_iff.mpr ⟨a, widen_eq_ok_iff.mpr haddress, rfl⟩

theorem read_attribute_eq_ok_iff {a : Attribute} :
    Attribute.read .rtcp value = .ok a ↔ ∃ r, read value = .ok r ∧ .rtcp r = a :=
  map_eq_ok_iff

theorem Addressed.exists_read_iff {f : Family} (h : Addressed f t value) :
    (∃ a, Attribute.read .rtcp value = .ok a) ↔ ∃ a, Network.readAddress f t = .ok a := by
  obtain ⟨rtcp, r, hrtcp, rfl, hvalue⟩ := h
  obtain ⟨_, hread, ⟨⟩⟩ := read_attribute_eq_ok_iff.mp hrtcp
  obtain ⟨port, network, family, address, hwords, hport, hnetwork, hfamily, -⟩ := read_eq_ok_iff.mp hread
  have hvalue : words value = [port, network, family, t] := by rw [hvalue, hwords]; rfl
  constructor
  · rintro ⟨_, ha⟩
    obtain ⟨r', hread', -⟩ := read_attribute_eq_ok_iff.mp ha
    obtain ⟨_, _, _, _, hwords', -, -, hfamily', haddress'⟩ := read_eq_ok_iff.mp hread'
    obtain ⟨rfl, rfl, rfl, rfl⟩ : _ ∧ _ ∧ _ ∧ _ := by simpa using hvalue.symm.trans hwords'
    obtain hf := Except.ok.inj (hfamily.symm.trans hfamily')
    rw [hf]
    exact ⟨r'.address, haddress'⟩
  · rintro ⟨a, ha⟩
    exact ⟨_, read_attribute_eq_ok_iff.mpr ⟨⟨r.port, r.family, a⟩, read_eq_ok_iff.mpr
      ⟨port, network, family, t, hvalue, hport, hnetwork, hfamily, ha⟩, rfl⟩⟩

end Rtcp

/-! ## Both -/

namespace Network

/-- An address is read without a family just if it is read with one, except for version 6 with a point.
No text is an address of both families, none with a percent sign or a slash is an address at all, and
whatever is refused is blamed as a whole. So a text is accepted in a candidate just if a control port of
some family accepts it, with the same exception. -/
theorem readAnyAddress_agrees (t : List Char) :
    (∀ a, readAnyAddress t = .ok a ↔ ∃ f, readAddress f t = .ok a ∧ ¬ (f = .ip6 ∧ '.' ∈ t)) ∧
    (∀ f g, (readAddress f t).isOk → (readAddress g t).isOk → f = g) ∧
    ('%' ∈ t ∨ '/' ∈ t → (readAnyAddress t).isOk = false ∧ ∀ f, (readAddress f t).isOk = false) ∧
    (∀ e, readAnyAddress t = .error e ∨ (∃ f, readAddress f t = .error e) →
      e = fault .address t ∨ e = fault .family t) ∧
    ∀ candidate (rtcp : Family → List Char), Candidate.Addressed t candidate →
      (∀ f, Rtcp.Addressed f t (rtcp f)) →
      ((∃ a, Attribute.read .candidate candidate = .ok a) ↔
        ∃ f, (∃ a, Attribute.read .rtcp (rtcp f) = .ok a) ∧ ¬ (f = .ip6 ∧ '.' ∈ t)) := by
  have hforeign (h : '%' ∈ t ∨ '/' ∈ t) (f : Family) : (readAddress f t).isOk = false := by
    cases hread : readAddress f t with
    | error e => rfl
    | ok a =>
        have hchars := isAddressChar_of_readAddress hread
        rcases h with h | h
        · exact absurd (hchars _ h) (by unfold Address.IsAddressChar; decide)
        · exact absurd (hchars _ h) (by unfold Address.IsAddressChar; decide)
  refine ⟨fun a => readAnyAddress_eq_ok_iff, fun f g hf hg => ?_,
    fun h => ⟨hforeign h _, hforeign h⟩, fun e h => ?_, fun candidate rtcp hcandidate hrtcp => ?_⟩
  · obtain ⟨a, ha⟩ := isOk_iff.mp hf
    obtain ⟨b, hb⟩ := isOk_iff.mp hg
    exact readAddress_unique ha hb
  · rcases h with h | ⟨f, h⟩
    · exact readAddress_eq_error h
    · exact readAddress_eq_error h
  · simp only [hcandidate.exists_read_iff, (hrtcp _).exists_read_iff, readAnyAddress_eq_ok_iff]
    exact ⟨fun ⟨a, f, ha, hf⟩ => ⟨f, ⟨a, ha⟩, hf⟩, fun ⟨f, ⟨a, ha⟩, hf⟩ => ⟨a, f, ha, hf⟩⟩

/-- Version 6 with a point behind the name of a remote address, and a zone with a point in it. -/
theorem readAnyAddress_agrees_of_mapped :
    let mapped := "::ffff:1.2.3.4".toList
    let zoned := "fe80::1%en.0".toList
    let candidate := "f 1 udp 7 10.0.0.1 9 typ host rport 2 RAddr ::ffff:1.2.3.4".toList
    let rtcp (f : Family) := "9 IN ".toList ++ f.word.toList ++ " ::ffff:1.2.3.4".toList
    Candidate.Addressed mapped candidate ∧ (∀ f, Rtcp.Addressed f mapped (rtcp f)) ∧
      (∃ a, Attribute.read .rtcp (rtcp .ip6) = .ok a) ∧ (¬ ∃ a, Attribute.read .candidate candidate = .ok a) ∧
      (readAddress .ip4 mapped).isOk = false ∧ (readAnyAddress zoned).isOk = false := by
  intro mapped zoned candidate rtcp
  have hcandidate : Candidate.Addressed mapped candidate := by
    have hread : Attribute.read .candidate "f 1 udp 7 10.0.0.1 9 typ host rport 2 RAddr ::1".toList =
        .ok (.candidate ⟨"f", 1, .udp, 7, .v4 10 0 0 1, 9, .host, some (.v6 [0, 0, 0, 0, 0, 0, 0, 1] rfl),
          some 2, none⟩) := by
      decide +kernel
    have hname : Candidate.Extension.remoteAddress.IsNamed "RAddr".toList := by
      unfold Candidate.Extension.IsNamed
      decide
    exact ⟨_, 9 + 2 * 1, ⟨_, hread⟩, .remote (by decide +kernel) hname, by decide +kernel, by decide +kernel⟩
  have hrtcp (f : Family) : Rtcp.Addressed f mapped (rtcp f) := by
    cases f with
    | ip4 =>
        exact ⟨"9 IN IP4 0.0.0.0".toList, ⟨9, .ip4, .v4 0 0 0 0⟩, by decide +kernel, rfl, by decide +kernel⟩
    | ip6 =>
        exact ⟨"9 IN IP6 ::".toList, ⟨9, .ip6, .v6 [0, 0, 0, 0, 0, 0, 0, 0] rfl⟩, by decide +kernel, rfl,
          by decide +kernel⟩
  obtain ⟨-, hunique, -, -, hagrees⟩ := readAnyAddress_agrees mapped
  have hread : (readAddress .ip6 mapped).isOk := by decide +kernel
  have hip4 : (readAddress .ip4 mapped).isOk = false :=
    Bool.eq_false_iff.mpr fun h => nomatch hunique .ip4 .ip6 h hread
  refine ⟨hcandidate, hrtcp, (hrtcp .ip6).exists_read_iff.mpr (isOk_iff.mp hread), ?_, hip4, ?_⟩
  · rw [hagrees candidate rtcp hcandidate hrtcp]
    rintro ⟨f, hf, h6⟩
    cases f with
    | ip4 => exact Bool.eq_false_iff.mp hip4 (isOk_iff.mpr ((hrtcp .ip4).exists_read_iff.mp hf))
    | ip6 => exact h6 ⟨rfl, by decide⟩
  · obtain ⟨-, -, hforeign, -⟩ := readAnyAddress_agrees zoned
    exact (hforeign (Or.inl (by decide))).1

end Network

end Sdp
