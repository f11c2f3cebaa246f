import Sdp.Attribute.Unnamed
import Sdp.Proofs.Attribute.Listing

/-!
# Attributes without a name

Main statement: `Attribute.emptyName_iff`, the lines that are read although they leave out a name.
-/

namespace Sdp

open Text (IsWord words)
open Candidate (IsNumber)

variable {value : List Char}

/-- A number that is no port is read as what it means. -/
theorem Quantity.decides_read_wide {q : Quantity} (hport : q.isPort = false) (hbound : q.bound = 0x100000000)
    (w : List Char) : Decides (IsNumber 0x100000000 w) w (q.read w) :=
  q.decides_read (fun n => hbound ▸ holds_iff_of_not_isPort hport n) w

/-! ## Codecs -/

namespace Rtpmap

variable {r : Rtpmap} {numbers : List (List Char)} {f c : Option Nat}

theorem read_eq_ok_iff :
    read value = .ok r ↔ ∃ payloadType token numbers, words value = [payloadType, token] ∧
      IsNumber 0x100000000 payloadType r.payloadType ∧ token.splitOn '/' = r.codec.toList :: numbers ∧
      Numbers numbers r.frequency r.channels := by
  have hpayloadType w := (Quantity.rtpmapPayloadType.decides_read_wide rfl rfl w).ok_iff
  have hfrequency w := (Quantity.rtpmapFrequency.decides_read_wide rfl rfl w).ok_iff
  have hchannels w := (Quantity.rtpmapChannels.decides_read_wide rfl rfl w).ok_iff
  obtain ⟨n, codec, f, c⟩ := r
  constructor
  · intro h
    unfold read at h
    split at h
    · next payloadType token hwords =>
        obtain ⟨m, hm, h⟩ := bind_eq_ok_iff.mp h
        split at h
        · next name hsplit =>
            cases h
            exact ⟨payloadType, token, _, hwords, (hpayloadType _ _).mp hm, by simpa using hsplit, .none⟩
        · next name frequency hsplit =>
            obtain ⟨k, hk, h⟩ := bind_eq_ok_iff.mp h
            cases h
            exact ⟨payloadType, token, _, hwords, (hpayloadType _ _).mp hm, by simpa using hsplit,
              .frequency ((hfrequency _ _).mp hk)⟩
        · next name frequency channels hsplit =>
            obtain ⟨k, hk, h⟩ := bind_eq_ok_iff.mp h
            obtain ⟨l, hl, h⟩ := bind_eq_ok_iff.mp h
            cases h
            exact ⟨payloadType, token, _, hwords, (hpayloadType _ _).mp hm, by simpa using hsplit,
              .channels ((hfrequency _ _).mp hk) ((hchannels _ _).mp hl)⟩
        · cases h
    · cases h
  · rintro ⟨payloadType, token, numbers, hwords, hn, hsplit, hnumbers⟩
    unfold read
    simp only [hwords, (hpayloadType _ _).mpr hn]
    cases hnumbers with
    | none =>
        simp only [hsplit, String.ofList_toList]
        rfl
    | frequency hf =>
        simp only [hsplit, (hfrequency _ _).mpr hf, String.ofList_toList]
        rfl
    | channels hf hc =>
        simp only [hsplit, (hfrequency _ _).mpr hf, (hchannels _ _).mpr hc, String.ofList_toList]
        rfl

theorem Numbers.not_mem_slash (h : Numbers numbers f c) : ∀ w ∈ numbers, '/' ∉ w := by
  have hnumber {w : List Char} {n : Nat} (hw : IsNumber 0x100000000 w n) : '/' ∉ w := fun hc =>
    hw.1.forall_mem (p := (· ≠ '/')) (by decide) (by decide) '/' hc rfl
  cases h with
  | none => exact List.forall_mem_nil _
  | frequency hf => simpa using hnumber hf
  | channels hf hc => simpa using ⟨hnumber hf, hnumber hc⟩

/-- A slash and numbers are the numbers of a codec with an empty name. -/
theorem splitOn_slash_iff (h : Numbers numbers f c) (hne : numbers ≠ []) {token : List Char} :
    token.splitOn '/' = [] :: numbers ↔ token = '/' :: ['/'].intercalate numbers := by
  have htoken : '/' :: ['/'].intercalate numbers = ['/'].intercalate ([] :: numbers) := by
    obtain ⟨w, ws, rfl⟩ := List.exists_cons_of_ne_nil hne
    simp [List.intercalate_cons_cons]
  rw [htoken]
  constructor
  · intro hsplit
    rw [← hsplit, List.intercalate_splitOn]
  · rintro rfl
    exact List.splitOn_intercalate '/'
      (List.forall_mem_cons.mpr ⟨List.not_mem_nil, h.not_mem_slash⟩) (List.cons_ne_nil _ _)

theorem Numbers.frequency_isSome (h : Numbers numbers f c) (hne : numbers ≠ []) : ∃ n, f = some n := by
  cases h with
  | none => exact absurd rfl hne
  | frequency _ => exact ⟨_, rfl⟩
  | channels _ _ => exact ⟨_, rfl⟩

theorem Numbers.ne_nil {n : Nat} (h : Numbers numbers (some n) c) : numbers ≠ [] := by
  rintro rfl
  cases h

theorem read_unnamed_iff :
    (∃ r, read value = .ok r ∧ r.codec = "") ↔ Attribute.LeavesOutName .rtpmap (words value) := by
  constructor
  · rintro ⟨⟨n, codec, f, c⟩, hread, rfl⟩
    obtain ⟨payloadType, token, numbers, hwords, hn, hsplit, hnumbers⟩ := read_eq_ok_iff.mp hread
    have hne : numbers ≠ [] := by
      rintro rfl
      -- With no numbers behind it the empty name would be the whole token.
      have hjoined : ['/'].intercalate (token.splitOn '/') = token := List.intercalate_splitOn '/'
      have hnil : token = [] := by
        rw [← hjoined, hsplit]
        rfl
      have hmem : token ∈ words value := by simp [hwords]
      exact (Text.isWord_of_mem_words hmem).1 hnil
    obtain ⟨k, rfl⟩ := hnumbers.frequency_isSome hne
    rw [hwords, (splitOn_slash_iff hnumbers hne).mp hsplit]
    exact .codec hn hnumbers
  · intro h
    generalize htokens : words value = tokens at h
    cases h with
    | @codec payloadType numbers n f c hn hnumbers =>
        have hsplit := (splitOn_slash_iff hnumbers hnumbers.ne_nil).mpr rfl
        exact ⟨⟨n, "", some f, c⟩, read_eq_ok_iff.mpr ⟨_, _, _, htokens, hn, hsplit, hnumbers⟩, rfl⟩

end Rtpmap

/-! ## Properties -/

namespace Ssrc

open Text (cut)

variable {s : Ssrc}

theorem read_eq_ok_iff :
    read value = .ok s ↔ ∃ id rest, words value = id :: rest ∧ IsNumber 0x100000000 id s.id ∧
      Property rest.head? s.name s.value := by
  have hid w := (Quantity.ssrcId.decides_read_wide rfl rfl w).ok_iff
  obtain ⟨n, name, text⟩ := s
  constructor
  · intro h
    unfold read at h
    split at h
    · cases h
    · next id rest hwords =>
        obtain ⟨m, hm, h⟩ := bind_eq_ok_iff.mp h
        refine ⟨id, rest, hwords, ?_⟩
        split at h
        · cases h
          exact ⟨(hid _ _).mp hm, .none⟩
        · next token rest =>
            split at h
            · next hcut =>
                cases h
                exact ⟨(hid _ _).mp hm, .name (Text.cut_eq_none_iff.mp hcut)⟩
            · next before after hcut =>
                cases h
                obtain ⟨rfl, hbefore⟩ := Text.eq_of_cut_eq_some hcut
                exact ⟨(hid _ _).mp hm, .value hbefore⟩
  · rintro ⟨id, rest, hwords, hn, hproperty⟩
    unfold read
    simp only [hwords, (hid _ _).mpr hn]
    generalize htoken : rest.head? = token at hproperty
    cases hproperty with
    | none =>
        rw [List.head?_eq_none_iff.mp htoken]
        rfl
    | name h =>
        obtain ⟨rest, rfl⟩ := List.head?_eq_some_iff.mp htoken
        simp only [Text.cut_eq_none_iff.mpr h]
        rfl
    | value h =>
        obtain ⟨rest, rfl⟩ := List.head?_eq_some_iff.mp htoken
        simp only [Text.cut_append h]
        rfl

theorem read_unnamed_iff :
    (∃ s, read value = .ok s ∧ s.name = some "") ↔ Attribute.LeavesOutName .ssrc (words value) := by
  constructor
  · rintro ⟨⟨n, name, text⟩, hread, rfl⟩
    obtain ⟨id, rest, hwords, hn, hproperty⟩ := read_eq_ok_iff.mp hread
    generalize htoken : rest.head? = token at hproperty
    generalize hname : some "" = name at hproperty
    cases hproperty with
    | none => cases hname
    | @name token h =>
        obtain ⟨rest, rfl⟩ := List.head?_eq_some_iff.mp htoken
        obtain rfl : token = [] := by simpa using hname
        have hmem : [] ∈ words value := by simp [hwords]
        exact absurd rfl (Text.isWord_of_mem_words hmem).1
    | @value before after h =>
        obtain ⟨rest, rfl⟩ := List.head?_eq_some_iff.mp htoken
        obtain rfl : before = [] := by simpa using hname
        rw [hwords]
        exact .property hn
  · intro h
    generalize htokens : words value = tokens at h
    cases h with
    | @property id text rest n hn =>
        exact ⟨⟨n, some "", some (.ofList text)⟩,
          read_eq_ok_iff.mpr ⟨id, _, htokens, hn, .value List.not_mem_nil⟩, rfl⟩

end Ssrc

/-! ## Streams -/

theorem StreamId.ofToken_eq_empty_iff {t : List Char} : (ofToken t).id = "" ↔ t = [] ∨ t = ['~'] := by
  unfold ofToken
  split
  · simp
  · next hmark => simpa using fun h => absurd h (hmark [])

namespace Simulcast

variable {tokens : List (List Char)} {side : Side} {w : List Char}

theorem hasEmptyAlternative_iff :
    HasEmptyAlternative w ↔ ∃ ids ∈ readStreams w, ∃ id ∈ ids, id.id = "" := by
  simp [HasEmptyAlternative, readStreams, StreamId.ofToken_eq_empty_iff]

theorem IsLastList.not_isUnnamed (h : IsLastList side tokens w) : ¬ IsUnnamed side tokens := by
  obtain ⟨i, name, hname, hside, -, -⟩ := h
  exact fun hno => hno i name hname hside

theorem IsLastList.unique {v : List Char} (h : IsLastList side tokens w) (h' : IsLastList side tokens v) :
    w = v := by
  obtain ⟨i, name, hname, hside, hw, hlater⟩ := h
  obtain ⟨j, name', hname', hside', hv, hlater'⟩ := h'
  obtain rfl : i = j := by
    rcases Nat.lt_trichotomy i j with hlt | heq | hgt
    · exact absurd hside' (hlater j hlt name' hname')
    · exact heq
    · exact absurd hside (hlater' i hgt name hname)
  exact Option.some.inj (hw.symm.trans hv)

theorem read_unnamed_iff :
    (∃ s, read value = .ok s ∧ ∃ side, ∃ ids ∈ s.streams side, ∃ id ∈ ids, id.id = "") ↔
      Attribute.LeavesOutName .simulcast (words value) := by
  constructor
  · rintro ⟨s, hread, side, ids, hids, id, hid, hempty⟩
    obtain ⟨-, hturns⟩ := isOk_read_iff.mp (isOk_iff.mpr ⟨s, hread⟩)
    rcases streams_of_read hread side with ⟨w, hlast, hstreams⟩ | ⟨-, hstreams⟩
    · rw [hstreams] at hids
      exact .stream hturns hlast (hasEmptyAlternative_iff.mpr ⟨ids, hids, id, hid, hempty⟩)
    · rw [hstreams] at hids
      cases hids
  · intro h
    generalize htokens : words value = tokens at h
    cases h with
    | @stream _ side w hturns hlast hempty =>
        subst htokens
        have hne : words value ≠ [] := fun hnil => by
          obtain ⟨i, name, hname, -⟩ := hlast
          simp [hnil] at hname
        obtain ⟨s, hread⟩ := isOk_iff.mp (isOk_read_iff.mpr ⟨hne, hturns⟩)
        refine ⟨s, hread, side, ?_⟩
        rcases streams_of_read hread side with ⟨v, hlast', hstreams⟩ | ⟨hno, -⟩
        · rw [hstreams, ← hlast.unique hlast']
          exact hasEmptyAlternative_iff.mp hempty
        · exact absurd hno hlast.not_isUnnamed

end Simulcast

/-! ## Attributes -/

namespace Attribute

theorem read_unnamed_iff {k : Kind} :
    (∃ a, read k value = .ok a ∧ a.HasEmptyName) ↔ LeavesOutName k (words value) := by
  have hmap {α : Type} {r : Reading α} {f : α → Attribute} :
      (∃ a, r.map f = .ok a ∧ a.HasEmptyName) ↔ ∃ v, r = .ok v ∧ (f v).HasEmptyName := by
    simp only [map_eq_ok_iff]
    exact ⟨fun ⟨_, ⟨v, hv, ha⟩, hname⟩ => ⟨v, hv, ha ▸ hname⟩,
      fun ⟨v, hv, hname⟩ => ⟨_, ⟨v, hv, rfl⟩, hname⟩⟩
  have hother (hkind : ∀ a : Attribute, a.kind = k → ¬ a.HasEmptyName)
      (htokens : ¬ LeavesOutName k (words value)) :
      (∃ a, read k value = .ok a ∧ a.HasEmptyName) ↔ LeavesOutName k (words value) :=
    iff_of_false (fun ⟨a, ha, hname⟩ => hkind a (fits_of_read ha).1 hname) htokens
  cases k with
  | rtpmap => exact hmap.trans Rtpmap.read_unnamed_iff
  | ssrc => exact hmap.trans Ssrc.read_unnamed_iff
  | simulcast => exact hmap.trans Simulcast.read_unnamed_iff
  | _ => exact hother (fun a ha => by cases a <;> first | exact id | cases ha) (fun h => nomatch h)

/-- A line is read as an attribute with an empty name just if its value is in order but for the name: a
slash and numbers for a codec, a colon and maybe a value for a property, and two marks in a row, a mark at
an end or a tilde alone in a list of streams. -/
theorem emptyName_iff (line : List Char) :
    (∃ a, ofLine line = .ok a ∧ a.HasEmptyName) ↔
      ∃ k, Kind.ofKeyword? (splitLine line).1 = some k ∧ LeavesOutName k (words (splitLine line).2) := by
  cases hk : Kind.ofKeyword? (splitLine line).1 with
  | none => simp [ofLine_of_unknown hk]
  | some k =>
      rw [ofLine_of_keyword hk, read_unnamed_iff]
      simp

/-- Names can be left out of all three. -/
theorem emptyName_read :
    (¬ ∀ a, ofLine "rtpmap:0 /8000".toList = .ok a → ¬ a.HasEmptyName) ∧
    (¬ ∀ a, ofLine "ssrc:1 :x".toList = .ok a → ¬ a.HasEmptyName) ∧
    (¬ ∀ a, ofLine "simulcast:send 1,;~".toList = .ok a → ¬ a.HasEmptyName) := by
  have hcodec : ofLine "rtpmap:0 /8000".toList = .ok (.rtpmap ⟨0, "", some 8000, none⟩) := by
    decide +kernel
  have hproperty : ofLine "ssrc:1 :x".toList = .ok (.ssrc ⟨1, some "", some "x"⟩) := by decide +kernel
  have hstream : ofLine "simulcast:send 1,;~".toList =
      .ok (.simulcast ⟨[[⟨"1", false⟩, ⟨"", false⟩], [⟨"", true⟩]], []⟩) := by
    decide +kernel
  have hempty : HasEmptyName (.simulcast ⟨[[⟨"1", false⟩, ⟨"", false⟩], [⟨"", true⟩]], []⟩) :=
    ⟨.send, [⟨"", true⟩], by simp [Simulcast.streams], ⟨"", true⟩, by simp, rfl⟩
  refine ⟨fun hnamed => ?_, fun hnamed => ?_, fun hnamed => ?_⟩
  · exact hnamed _ hcodec rfl
  · exact hnamed _ hproperty rfl
  · exact hnamed _ hstream hempty

end Attribute

end Sdp
