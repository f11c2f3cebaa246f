import Sdp.Attribute.Verbatim
import Sdp.Proofs.Attribute.Unnamed
import Sdp.Proofs.Session.Keywords

/-!
# Kept text is the text of the value

Main statement: `Attribute.read_keeps`, what is kept of a value that is read stands there as it is, and so
do the two parts of a line.
-/

namespace Sdp

open Text (cut trim words)

variable {value : List Char}

/-! ## Values -/

theorem plain_direction (d : Direction) : Text.Plain d.word.toList := by
  cases d <;> decide

theorem Extmap.keeps_of_read {e : Extmap} (h : read value = .ok e) : e.Keeps value := by
  have hid w := (Quantity.extmapId.decides_read_wide rfl rfl w).ok_iff
  have hdirection w := (Keyword.extmapDirection.decides_read Direction.spelled plain_direction w).ok_iff
  unfold read at h
  split at h
  · next token url hwords =>
      split at h
      · next hcut =>
          obtain ⟨n, hn, h⟩ := bind_eq_ok_iff.mp h
          cases h
          refine ⟨token, by simpa using hwords, ?_⟩
          exact .plain (Text.cut_eq_none_iff.mp hcut) ((hid _ _).mp hn)
      · next id direction hcut =>
          obtain ⟨d, hd, h⟩ := bind_eq_ok_iff.mp h
          obtain ⟨n, hn, h⟩ := bind_eq_ok_iff.mp h
          cases h
          obtain ⟨rfl, hmark⟩ := Text.eq_of_cut_eq_some hcut
          refine ⟨_, by simpa using hwords, ?_⟩
          exact .directed hmark ((hid _ _).mp hn) ((hdirection _ _).mp hd)
  · cases h

theorem Fingerprint.words_of_read {f : Fingerprint} (h : read value = .ok f) :
    words value = [f.hash.toList, f.value.toList] := by
  unfold read at h
  split at h
  · next hwords =>
      cases h
      simpa using hwords
  · cases h

theorem Fmtp.keeps_of_read {f : Fmtp} (h : read value = .ok f) : f.Keeps value := by
  have hpayloadType w := (Quantity.fmtpPayloadType.decides_read_wide rfl rfl w).ok_iff
  unfold read at h
  split at h
  · next token parameters hwords =>
      obtain ⟨n, hn, h⟩ := bind_eq_ok_iff.mp h
      cases h
      have htoList : String.toList ∘ String.ofList = id := funext fun _ => String.toList_ofList
      refine ⟨⟨token, parameters, hwords, (hpayloadType _ _).mp hn⟩, ?_, ?_⟩
      · rw [List.map_map, htoList, List.map_id, List.intercalate_splitOn]
      · intro piece hpiece
        obtain ⟨text, htext, rfl⟩ := List.mem_map.mp hpiece
        rw [String.toList_ofList]
        exact Text.not_mem_of_mem_splitOn htext
  · cases h

theorem Msid.words_of_read {m : Msid} (h : read value = .ok m) :
    ∃ rest, words value = m.id.toList :: rest ∧ rest.head? = m.appdata.map String.toList := by
  unfold read at h
  split at h
  · cases h
  · next id rest hwords =>
      cases h
      refine ⟨rest, by simpa using hwords, ?_⟩
      cases rest <;> simp

theorem RtcpFb.keeps_of_read {r : RtcpFb} (h : read value = .ok r) : r.Keeps value := by
  have hpayloadType w := (Quantity.rtcpFbPayloadType.decides_read_wide rfl rfl w).ok_iff
  unfold read at h
  split at h
  · cases h
  · next token feedback hfeedback hcut =>
      obtain ⟨n, hn, h⟩ := bind_eq_ok_iff.mp h
      cases h
      obtain ⟨front, gap, hvalue, hfront, htoken, hgap, hblanks, hstart⟩ :=
        Text.eq_of_cutWord_eq hcut (hfeedback · )
      refine ⟨front, token, gap, by simpa using hvalue, hfront, htoken, (hpayloadType _ _).mp hn, hgap,
        hblanks, by simpa using hstart⟩

theorem intercalate_slash (codec : List Char) (numbers : List (List Char)) :
    ['/'].intercalate (codec :: numbers) = codec ++ numbers.flatMap ('/' :: ·) := by
  induction numbers generalizing codec with
  | nil => simp
  | cons w ws ih => rw [List.intercalate_cons_cons, ih, List.flatMap_cons]; simp

theorem Rtpmap.keeps_of_read {r : Rtpmap} (h : read value = .ok r) : r.Keeps value := by
  obtain ⟨payloadType, token, numbers, hwords, hn, hsplit, hnumbers⟩ := read_eq_ok_iff.mp h
  have htoken : r.codec.toList ++ numbers.flatMap ('/' :: ·) = token := by
    rw [← intercalate_slash, ← hsplit, List.intercalate_splitOn]
  refine ⟨payloadType, numbers, ?_, hn, ?_, hnumbers⟩
  · rw [hwords, htoken]
  · exact Text.not_mem_of_mem_splitOn (s := token) (by simp [hsplit])

theorem Candidate.head?_of_read {c : Candidate} (h : read value = .ok c) :
    (words value).head? = some c.foundation.toList := by
  have hlt : 0 < mandatoryTokens := by decide
  rw [← (fieldsOf_of_read h).1.foundation, List.getElem?_take_of_lt hlt, List.head?_eq_getElem?]

/-! ## Attributes -/

namespace Attribute

theorem keeps_of_read {k : Kind} {a : Attribute} (h : read k value = .ok a) : a.Keeps value := by
  cases k with
  | label l =>
      cases h
      exact String.toList_ofList
  | candidate =>
      obtain ⟨c, hc, rfl⟩ := map_eq_ok_iff.mp h
      exact Candidate.head?_of_read hc
  | extmap =>
      obtain ⟨e, he, rfl⟩ := map_eq_ok_iff.mp h
      exact Extmap.keeps_of_read he
  | fingerprint =>
      obtain ⟨f, hf, rfl⟩ := map_eq_ok_iff.mp h
      exact Fingerprint.words_of_read hf
  | fmtp =>
      obtain ⟨f, hf, rfl⟩ := map_eq_ok_iff.mp h
      exact Fmtp.keeps_of_read hf
  | group =>
      obtain ⟨g, hg, rfl⟩ := map_eq_ok_iff.mp h
      obtain ⟨word, tags, hwords, -, htags⟩ := Group.read_eq_ok_iff.mp hg
      exact ⟨word, by simpa [htags, Function.comp_def] using hwords⟩
  | iceOptions =>
      cases h
      simp [Keeps, Function.comp_def]
  | msid =>
      obtain ⟨m, hm, rfl⟩ := map_eq_ok_iff.mp h
      exact Msid.words_of_read hm
  | rtcpFb =>
      obtain ⟨r, hr, rfl⟩ := map_eq_ok_iff.mp h
      exact RtcpFb.keeps_of_read hr
  | rtpmap =>
      obtain ⟨r, hr, rfl⟩ := map_eq_ok_iff.mp h
      exact Rtpmap.keeps_of_read hr
  | simulcast =>
      obtain ⟨s, hs, rfl⟩ := map_eq_ok_iff.mp h
      exact Simulcast.holdsLast_of_read hs
  | ssrc =>
      obtain ⟨s, hs, rfl⟩ := map_eq_ok_iff.mp h
      exact Ssrc.read_eq_ok_iff.mp hs
  | _ =>
      obtain ⟨v, -, rfl⟩ := map_eq_ok_iff.mp h
      trivial

theorem divides_splitLine {line : List Char} (h : ':' ∈ line) :
    Divides line (splitLine line).1 (splitLine line).2 := by
  cases hcut : cut ':' line with
  | none => exact absurd h (Text.cut_eq_none_iff.mp hcut)
  | some parts =>
      obtain ⟨keyword, rest⟩ := parts
      obtain ⟨rfl, hkeyword⟩ := Text.eq_of_cut_eq_some hcut
      have hsplit : splitLine (keyword ++ ':' :: rest) = (keyword, trim rest) := by
        unfold splitLine
        rw [hcut]
      obtain ⟨front, back, hfront, hback, hrest⟩ := Text.exists_eq_append_trim rest
      rw [hsplit]
      exact ⟨hkeyword, Text.isTrimmed_trim rest, front, back, hfront, hback, by rw [← hrest]⟩

/-- Whatever an attribute keeps of a value stands in the value as it is, be there blanks around the value or
not; and a line with a colon is the keyword, the first colon, and the value between blanks. -/
theorem read_keeps :
    (∀ k value a, read k value = .ok a → a.Keeps value) ∧
    (∀ line, ':' ∈ line → Divides line (splitLine line).1 (splitLine line).2) :=
  ⟨fun _ _ _ h => keeps_of_read h, fun _ h => divides_splitLine h⟩

/-- Blanks of any script, and separators in a row and at the end. -/
theorem read_keeps_of_blanks :
    (RtcpFb.mk 96 "ccm  fir\u3000").Keeps "\t96\u2003\u00a0ccm  fir\u3000".toList ∧
    (Fmtp.mk 7 [" 07 a=1", "", "b", " "]).Keeps " 07 a=1;;b; ".toList ∧
    Divides "fmtp:\u2028 7 a:b\u0085".toList "fmtp".toList "7 a:b".toList := by
  have hfeedback : read .rtcpFb "\t96\u2003\u00a0ccm  fir\u3000".toList =
      .ok (.rtcpFb ⟨96, "ccm  fir\u3000"⟩) := by decide +kernel
  have hpieces : read .fmtp " 07 a=1;;b; ".toList = .ok (.fmtp ⟨7, [" 07 a=1", "", "b", " "]⟩) := by
    decide +kernel
  have hline : splitLine "fmtp:\u2028 7 a:b\u0085".toList = ("fmtp".toList, "7 a:b".toList) := by
    decide +kernel
  refine ⟨read_keeps.1 _ _ _ hfeedback, read_keeps.1 _ _ _ hpieces, ?_⟩
  have hdivides := read_keeps.2 "fmtp:\u2028 7 a:b\u0085".toList (by decide)
  rw [hline] at hdivides
  exact hdivides

end Attribute

end Sdp
