import Sdp.Attribute.Parser
import Sdp.Attribute.WellFormed
import Sdp.Proofs.Attribute.Extensions

/-!
# Readers give well-formed values

One lemma per reader says what it gives and what it blames. Main statement:
`Attribute.read_wellFormed`.
-/

namespace Sdp

open Text (IsWord isBlank)

/-! ## Readers -/

theorem Flag.meets_read (f : Flag) (value : List Char) : Meets value (fun _ => value = []) (f.read value) := by
  unfold Flag.read
  split
  · next h => exact .ok (List.isEmpty_iff.mp h)
  · exact .refuse rfl List.infix_rfl

theorem Extmap.meets_read (value : List Char) : Meets value Extmap.WellFormed (Extmap.read value) := by
  unfold Extmap.read
  split
  · next token url h =>
      obtain ⟨⟨-, htoken⟩, hurl, -⟩ :
          (IsWord token ∧ token <:+: value) ∧ IsWord url ∧ url <:+: value := by
        simpa using Text.forall_of_words_eq h
      split
      · exact .bind (Quantity.meets_read _ token) htoken fun id hid => .ok ⟨hid.1, oneWord_ofList.mpr hurl⟩
      · next id direction hcut =>
          obtain ⟨hbefore, hafter⟩ := Text.infix_of_cut_eq_some hcut
          refine .bind (Keyword.meets_read _ _ _ direction) (hafter.trans htoken) fun d _ => ?_
          exact .bind (Quantity.meets_read _ id) (hbefore.trans htoken) fun n hn =>
            .ok ⟨hn.1, oneWord_ofList.mpr hurl⟩
  · exact .refuse rfl List.infix_rfl

theorem Fingerprint.meets_read (value : List Char) :
    Meets value Fingerprint.WellFormed (Fingerprint.read value) := by
  unfold Fingerprint.read
  split
  · next hash digest h =>
      obtain ⟨⟨hhash, -⟩, hdigest, -⟩ :
          (IsWord hash ∧ hash <:+: value) ∧ IsWord digest ∧ digest <:+: value := by
        simpa using Text.forall_of_words_eq h
      exact .ok ⟨oneWord_ofList.mpr hhash, oneWord_ofList.mpr hdigest⟩
  · exact .refuse rfl List.infix_rfl

theorem Fmtp.meets_read (value : List Char) : Meets value Fmtp.WellFormed (Fmtp.read value) := by
  unfold Fmtp.read
  split
  · next payloadType parameters h =>
      obtain ⟨-, hpart⟩ := Text.forall_of_words_eq h payloadType (by simp)
      refine .bind (Quantity.meets_read _ payloadType) hpart fun n hn => .ok ⟨hn.1, by simp, ?_⟩
      intro t ht
      obtain ⟨w, hw, rfl⟩ := List.mem_map.mp ht
      rw [String.toList_ofList]
      exact Text.not_mem_of_mem_splitOn hw
  · exact .refuse rfl List.infix_rfl

theorem Group.meets_read (value : List Char) : Meets value Group.WellFormed (Group.read value) := by
  unfold Group.read
  split
  · exact .refuse rfl List.infix_rfl
  · next word tags h =>
      obtain ⟨⟨-, hword⟩, htags⟩ := List.forall_mem_cons.mp (Text.forall_of_words_eq h)
      split
      · exact .refuse rfl hword
      · refine .ok ⟨fun t ht => ?_⟩
        obtain ⟨w, hw, rfl⟩ := List.mem_map.mp ht
        exact oneWord_ofList.mpr (htags w hw).1

theorem Msid.meets_read (value : List Char) : Meets value Msid.WellFormed (Msid.read value) := by
  unfold Msid.read
  split
  · exact .refuse rfl List.infix_rfl
  · next id rest h =>
      obtain ⟨⟨hid, -⟩, hrest⟩ := List.forall_mem_cons.mp (Text.forall_of_words_eq h)
      refine .ok ⟨oneWord_ofList.mpr hid, fun t ht => ?_⟩
      obtain ⟨w, hw, rfl⟩ := Option.map_eq_some_iff.mp ht
      exact oneWord_ofList.mpr (hrest w (List.mem_of_mem_head? hw)).1

theorem Rtcp.meets_read (value : List Char) : Meets value Rtcp.WellFormed (Rtcp.read value) := by
  unfold Rtcp.read
  split
  · next port network family address h =>
      obtain ⟨⟨-, hport⟩, ⟨-, hnetwork⟩, ⟨-, hfamily⟩, -, haddress⟩ :
          (IsWord port ∧ port <:+: value) ∧ (IsWord network ∧ network <:+: value) ∧
          (IsWord family ∧ family <:+: value) ∧ IsWord address ∧ address <:+: value := by
        simpa using Text.forall_of_words_eq h
      refine .bind (Quantity.meets_read _ port) hport fun n hn => ?_
      refine .bind (Network.meets_readType network) hnetwork fun _ _ => ?_
      refine .bind (Network.meets_readFamily family) hfamily fun f _ => ?_
      exact .bind (Network.meets_readAddress f address) haddress fun a ha =>
        .ok ⟨hn.2 rfl, ha, a.noZone⟩
  · exact .refuse rfl List.infix_rfl

theorem RtcpFb.meets_read (value : List Char) : Meets value RtcpFb.WellFormed (RtcpFb.read value) := by
  unfold RtcpFb.read
  split
  · exact .refuse rfl List.infix_rfl
  · next payloadType feedback hne h =>
      obtain ⟨hpart, hhead⟩ := Text.cutWord_spec h
      refine .bind (Quantity.meets_read _ payloadType) hpart fun n hn => .ok ⟨hn.1, ?_⟩
      rw [String.toList_ofList]
      cases feedback with
      | nil => exact (hne rfl).elim
      | cons c rest => exact ⟨c, rest, rfl, hhead c rest rfl⟩

theorem Rtpmap.meets_read (value : List Char) : Meets value Rtpmap.WellFormed (Rtpmap.read value) := by
  unfold Rtpmap.read
  split
  · next payloadType token h =>
      obtain ⟨⟨-, hpart⟩, hword, htoken⟩ :
          (IsWord payloadType ∧ payloadType <:+: value) ∧ IsWord token ∧ token <:+: value := by
        simpa using Text.forall_of_words_eq h
      refine .bind (Quantity.meets_read _ payloadType) hpart fun n hn => ?_
      have hcodec {ws : List (List Char)} (hws : token.splitOn '/' = ws) : ∀ w ∈ ws,
          (∀ c ∈ (String.ofList w).toList, c ≠ '/' ∧ isBlank c = false) ∧ w <:+: value := by
        intro w hw
        rw [← hws] at hw
        rw [String.toList_ofList]
        exact ⟨hword.of_mem_splitOn hw, (Text.infix_of_mem_splitOn hw).trans htoken⟩
      split
      · next codec hs =>
          obtain ⟨hname, -⟩ := hcodec hs codec (by simp)
          exact .ok ⟨hn.1, hname, by simp, by simp, by simp⟩
      · next codec frequency hs =>
          obtain ⟨hname, -⟩ := hcodec hs codec (by simp)
          obtain ⟨-, hf⟩ := hcodec hs frequency (by simp)
          exact .bind (Quantity.meets_read _ frequency) hf fun f hf =>
            .ok ⟨hn.1, hname, by simpa [Quantity.bound] using hf.1, by simp, by simp⟩
      · next codec frequency channels hs =>
          obtain ⟨hname, -⟩ := hcodec hs codec (by simp)
          obtain ⟨-, hf⟩ := hcodec hs frequency (by simp)
          obtain ⟨-, hc⟩ := hcodec hs channels (by simp)
          refine .bind (Quantity.meets_read _ frequency) hf fun f hf => ?_
          exact .bind (Quantity.meets_read _ channels) hc fun c hc =>
            .ok ⟨hn.1, hname, by simpa [Quantity.bound] using hf.1,
              by simpa [Quantity.bound] using hc.1, by simp⟩
      · exact .refuse rfl htoken
  · exact .refuse rfl List.infix_rfl

theorem Sctpmap.meets_read (value : List Char) : Meets value Sctpmap.WellFormed (Sctpmap.read value) := by
  unfold Sctpmap.read
  split
  · next port protocol channels h =>
      obtain ⟨⟨-, hport⟩, ⟨-, hprotocol⟩, -, hchannels⟩ :
          (IsWord port ∧ port <:+: value) ∧ (IsWord protocol ∧ protocol <:+: value) ∧
          IsWord channels ∧ channels <:+: value := by
        simpa using Text.forall_of_words_eq h
      refine .bind (Quantity.meets_read _ port) hport fun p hp => ?_
      refine .bind (Keyword.meets_expect _ _ protocol) hprotocol fun _ _ => ?_
      exact .bind (Quantity.meets_read _ channels) hchannels fun c hc => .ok ⟨hp.2 rfl, hc.1⟩
  · exact .refuse rfl List.infix_rfl

theorem Ssrc.meets_read (value : List Char) : Meets value Ssrc.WellFormed (Ssrc.read value) := by
  unfold Ssrc.read
  split
  · exact .refuse rfl List.infix_rfl
  · next id rest h =>
      obtain ⟨⟨-, hid⟩, hrest⟩ := List.forall_mem_cons.mp (Text.forall_of_words_eq h)
      refine .bind (Quantity.meets_read _ id) hid fun n hn => ?_
      split
      · exact .ok ⟨hn.1, by simp, by simp, by simp⟩
      · next token tokens =>
          obtain ⟨⟨-, hblank⟩, -⟩ := hrest token (List.mem_cons_self ..)
          split
          · next hcut =>
              refine .ok ⟨hn.1, ?_, by simp, by simp⟩
              rintro t ⟨⟩ c hc
              rw [String.toList_ofList] at hc
              exact ⟨fun he => Text.cut_eq_none_iff.mp hcut (he ▸ hc), hblank c hc⟩
          · next name text hcut =>
              obtain ⟨htoken, hname⟩ := Text.eq_of_cut_eq_some hcut
              rw [htoken] at hblank
              refine .ok ⟨hn.1, ?_, ?_, by simp⟩
              · rintro t ⟨⟩ c hc
                rw [String.toList_ofList] at hc
                exact ⟨fun he => hname (he ▸ hc), hblank c (List.mem_append_left _ hc)⟩
              · rintro t ⟨⟩ c hc
                rw [String.toList_ofList] at hc
                exact hblank c (List.mem_append_right _ (List.mem_cons_of_mem _ hc))

/-! ## Lists of streams -/

theorem StreamId.wellFormed_ofToken {t : List Char}
    (h : ∀ c ∈ t, c ≠ ',' ∧ c ≠ ';' ∧ isBlank c = false) : (ofToken t).WellFormed := by
  unfold ofToken StreamId.WellFormed
  split
  · rw [String.toList_ofList]
    exact fun c hc => h c (List.mem_cons_of_mem _ hc)
  · rw [String.toList_ofList]
    exact h

namespace Simulcast

/-- Every stream has alternatives, whose names can stand in a list. -/
def Alternatives (streams : List (List StreamId)) : Prop :=
  ∀ ids ∈ streams, ids ≠ [] ∧ ∀ id ∈ ids, id.WellFormed

theorem alternatives_readStreams {w : List Char} (hw : IsWord w) : Alternatives (readStreams w) := by
  intro ids hids
  obtain ⟨alternatives, halt, rfl⟩ := List.mem_map.mp hids
  refine ⟨by simp, fun id hid => ?_⟩
  obtain ⟨t, ht, rfl⟩ := List.mem_map.mp hid
  refine StreamId.wellFormed_ofToken fun c hc => ?_
  have hcalt : c ∈ alternatives := (Text.infix_of_mem_splitOn ht).subset hc
  refine ⟨fun he => Text.not_mem_of_mem_splitOn ht (he ▸ hc), ?_⟩
  exact hw.of_mem_splitOn halt c hcalt

theorem readStreams_ne_nil (w : List Char) : readStreams w ≠ [] := by
  simp [readStreams]

/-- Reading pairs of a side and its streams keeps every list of streams well formed, and one pair is
enough for a side. -/
theorem meets_readSides {value : List Char} {s : Simulcast} {tokens : List (List Char)}
    (hsend : Alternatives s.send) (hreceive : Alternatives s.receive)
    (hside : tokens = [] → s.send ≠ [] ∨ s.receive ≠ [])
    (htokens : ∀ w ∈ tokens, IsWord w ∧ w <:+: value) :
    Meets value Simulcast.WellFormed (readSides value s tokens) := by
  fun_induction readSides value s tokens with
  | case1 s =>
      refine .ok ⟨hside rfl, fun ids hids => ?_⟩
      exact (List.mem_append.mp hids).elim (hsend ids) (hreceive ids)
  | case2 s word =>
      obtain ⟨-, hpart⟩ := htokens word (by simp)
      exact .bind (Keyword.meets_read _ _ _ word) hpart fun _ _ => .refuse rfl List.infix_rfl
  | case3 s word streams rest ih =>
      obtain ⟨-, hpart⟩ := htokens word (by simp)
      obtain ⟨hstreams, -⟩ := htokens streams (by simp)
      have halt := alternatives_readStreams hstreams
      have hne := readStreams_ne_nil streams
      refine .bind (Keyword.meets_read _ _ _ word) hpart fun side _ => ?_
      have hrest : ∀ w ∈ rest, IsWord w ∧ w <:+: value := fun w hw =>
        htokens w (List.mem_cons_of_mem _ (List.mem_cons_of_mem _ hw))
      cases side with
      | send => exact ih .send halt hreceive (fun _ => Or.inl hne) hrest
      | receive => exact ih .receive hsend halt (fun _ => Or.inr hne) hrest

theorem meets_read (value : List Char) : Meets value Simulcast.WellFormed (read value) := by
  unfold read
  split
  · exact .refuse rfl List.infix_rfl
  · next hne =>
      exact meets_readSides (by simp [Alternatives]) (by simp [Alternatives])
        (fun h => absurd h hne) (Text.forall_of_words_eq rfl)

end Simulcast

/-! ## Candidates -/

theorem Candidate.meets_readMandatory {value : List Char} {tokens : List (List Char)}
    (htokens : ∀ w ∈ tokens, IsWord w ∧ w <:+: value) :
    Meets value Candidate.WellFormed (readMandatory value tokens) := by
  unfold readMandatory
  split
  · next foundation component transport priority address port typ type =>
      obtain ⟨⟨hfoundation, -⟩, ⟨-, hcomponent⟩, ⟨-, htransport⟩, ⟨-, hpriority⟩, ⟨-, haddress⟩,
          ⟨-, hport⟩, ⟨-, htyp⟩, -, htype⟩ :
          (IsWord foundation ∧ foundation <:+: value) ∧ (IsWord component ∧ component <:+: value) ∧
          (IsWord transport ∧ transport <:+: value) ∧ (IsWord priority ∧ priority <:+: value) ∧
          (IsWord address ∧ address <:+: value) ∧ (IsWord port ∧ port <:+: value) ∧
          (IsWord typ ∧ typ <:+: value) ∧ IsWord type ∧ type <:+: value := by
        simpa using htokens
      refine .bind (Quantity.meets_read _ component) hcomponent fun n hn => ?_
      refine .bind (Keyword.meets_read _ _ _ transport) htransport fun _ _ => ?_
      refine .bind (Quantity.meets_read _ priority) hpriority fun m hm => ?_
      refine .bind (meets_readAddress address) haddress fun a _ => ?_
      refine .bind (Quantity.meets_read _ port) hport fun q hq => ?_
      refine .bind (Keyword.meets_expect _ _ typ) htyp fun _ _ => ?_
      refine .bind (Keyword.meets_read _ _ _ type) htype fun _ _ => .ok ?_
      exact
        { foundation := oneWord_ofList.mpr hfoundation, component := hn.1, priority := hm.1,
          address := a.noZone, port := hq.2 rfl, remoteAddress := by simp, remotePort := by simp }
  · exact .refuse rfl List.infix_rfl

/-- The mandatory tokens of a value give a well-formed candidate or are to blame. -/
theorem Candidate.meets_readMandatory_words (value : List Char) :
    Meets value Candidate.WellFormed
      (readMandatory value ((Text.words value).take mandatoryTokens)) :=
  meets_readMandatory fun w hw => Text.forall_of_words_eq rfl w (List.mem_of_mem_take hw)

theorem Candidate.wellFormed_of_read {value : List Char} {c : Candidate} (h : read value = .ok c) :
    c.WellFormed := by
  have hmandatory := meets_readMandatory_words value
  rw [read_eq] at h
  cases hr : readMandatory value ((Text.words value).take mandatoryTokens) with
  | error e =>
      rw [hr] at h
      cases h
  | ok c₀ =>
      rw [hr] at h hmandatory
      rcases readExtensions_outcome c₀ ((Text.words value).drop mandatoryTokens) with
        ⟨-, c', hc', hwf⟩ | ⟨p, f, -, hf, -⟩
      · obtain rfl : c' = c := Except.ok.inj (hc'.symm.trans h)
        exact hwf hmandatory
      · cases hf.symm.trans h

/-! ## Attributes -/

/-- An attribute that carries what its kind says, and well formed; the value of a flag is empty. -/
def Attribute.Fits (k : Kind) (value : List Char) (a : Attribute) : Prop :=
  a.kind = k ∧ (k.isFlag → value = []) ∧ a.WellFormed

/-- Every reader but that of candidates blames malformed text only. -/
theorem Attribute.meets_read {k : Kind} (hk : k ≠ .candidate) (value : List Char) :
    Meets value (Fits k value) (read k value) := by
  cases k with
  | flag f => exact (f.meets_read value).map fun _ h => ⟨rfl, fun _ => h, trivial⟩
  | label l => exact .ok ⟨rfl, nofun, trivial⟩
  | candidate => exact absurd rfl hk
  | extmap => exact (Extmap.meets_read value).map fun _ h => ⟨rfl, nofun, h⟩
  | fingerprint => exact (Fingerprint.meets_read value).map fun _ h => ⟨rfl, nofun, h⟩
  | fmtp => exact (Fmtp.meets_read value).map fun _ h => ⟨rfl, nofun, h⟩
  | group => exact (Group.meets_read value).map fun _ h => ⟨rfl, nofun, h⟩
  | iceOptions =>
      refine .ok ⟨rfl, nofun, fun t ht => ?_⟩
      obtain ⟨w, hw, rfl⟩ := List.mem_map.mp ht
      exact oneWord_ofList.mpr (Text.isWord_of_mem_words hw)
  | msid => exact (Msid.meets_read value).map fun _ h => ⟨rfl, nofun, h⟩
  | rtcp => exact (Rtcp.meets_read value).map fun _ h => ⟨rfl, nofun, h⟩
  | rtcpFb => exact (RtcpFb.meets_read value).map fun _ h => ⟨rfl, nofun, h⟩
  | rtpmap => exact (Rtpmap.meets_read value).map fun _ h => ⟨rfl, nofun, h⟩
  | sctpmap => exact (Sctpmap.meets_read value).map fun _ h => ⟨rfl, nofun, h⟩
  | sctpPort => exact (Quantity.meets_read _ value).map fun _ h => ⟨rfl, nofun, h.2 rfl⟩
  | setup => exact (Keyword.meets_read _ _ _ value).map fun _ _ => ⟨rfl, nofun, trivial⟩
  | simulcast => exact (Simulcast.meets_read value).map fun _ h => ⟨rfl, nofun, h⟩
  | ssrc => exact (Ssrc.meets_read value).map fun _ h => ⟨rfl, nofun, h⟩

theorem Attribute.fits_of_read {k : Kind} {value : List Char} {a : Attribute} (h : read k value = .ok a) :
    a.Fits k value := by
  by_cases hk : k = .candidate
  · subst hk
    obtain ⟨c, hc, rfl⟩ : ∃ c, Candidate.read value = .ok c ∧ Attribute.candidate c = a := by
      cases hr : Candidate.read value with
      | error e => simp [read, hr, Except.map] at h
      | ok c => exact ⟨c, rfl, by simpa [read, hr, Except.map] using h⟩
    exact ⟨rfl, nofun, Candidate.wellFormed_of_read hc⟩
  · exact (meets_read hk value).of_eq_ok h

/-- Whatever a reader gives is of its kind, carries what the kind says, and is well formed; a flag
has been read from nothing. -/
theorem Attribute.read_wellFormed (k : Kind) (value : List Char) (a : Attribute) (h : read k value = .ok a) :
    a.kind = k ∧ (∃ v : k.Value, a = ofValue k v) ∧ (k.isFlag → value = []) ∧ a.WellFormed := by
  obtain ⟨rfl, hflag, hwf⟩ := fits_of_read h
  exact ⟨rfl, a.exists_eq_ofValue, hflag, hwf⟩

theorem Attribute.read_wellFormed_of_candidate :
    ∃ a, read .candidate "1 1 UDP 7 24.23.204.141 9 typ srflx rport 61665 raddr ::1 x".toList = .ok a ∧
      a.kind = .candidate ∧ (∃ v : Kind.candidate.Value, a = ofValue .candidate v) ∧
      (Kind.candidate.isFlag → "1 1 UDP 7 24.23.204.141 9 typ srflx rport 61665 raddr ::1 x".toList = []) ∧
      a.WellFormed := by
  have h : read .candidate "1 1 UDP 7 24.23.204.141 9 typ srflx rport 61665 raddr ::1 x".toList =
      .ok (.candidate
        { foundation := "1", component := 1, transport := .udp, priority := 7,
          address := .v4 24 23 204 141, port := 9, type := .serverReflexive,
          remoteAddress := some (.v6 [0, 0, 0, 0, 0, 0, 0, 1] rfl), remotePort := some 61665 }) := by
    rfl
  exact ⟨_, h, read_wellFormed .candidate _ _ h⟩

end Sdp
