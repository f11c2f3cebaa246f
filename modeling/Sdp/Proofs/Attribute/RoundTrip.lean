import Sdp.Proofs.Attribute.Streams

/-!
# Attributes survive their canonical text

One lemma per reader says that it gives back what has been written. Main statement:
`Attribute.read_write_of_writable`.
-/

namespace Sdp

open Text (IsWord isBlank words unwords words_unwords words_unwords_pair)
open Numeral (decimal isWord_decimal not_mem_decimal)

/-! ## Values of one kind -/

theorem Extmap.read_write {e : Extmap} (h : e.WellFormed) : read e.write = .ok e := by
  obtain ⟨id, direction, url⟩ := e
  have hid : Quantity.extmapId.Holds id := ⟨h.id, nofun⟩
  have hslash : '/' ∉ decimal id := not_mem_decimal (by decide) id
  unfold read write
  cases direction with
  | none =>
      have htoken : IsWord (decimal id ++ []) := by simpa using isWord_decimal id
      simp only [words_unwords_pair htoken h.url]
      simp only [List.append_nil, Text.cut_eq_none_iff.mpr hslash, Quantity.read_decimal hid,
        String.ofList_toList]
      rfl
  | some d =>
      have htoken : IsWord (decimal id ++ '/' :: d.word.toList) :=
        (isWord_decimal id).append (List.forall_mem_cons.mpr ⟨by decide, (Direction.spelled.isWord d).2⟩)
      simp only [words_unwords_pair htoken h.url, Text.cut_append hslash,
        Keyword.read_word Direction.spelled, Quantity.read_decimal hid, String.ofList_toList]
      rfl

theorem Fingerprint.read_write {f : Fingerprint} (h : f.WellFormed) : read f.write = .ok f := by
  have hwords : words f.write = [f.hash.toList, f.value.toList] := words_unwords_pair h.hash h.value
  unfold read
  simp only [hwords, String.ofList_toList]

section Parameters

variable (payloadType : Nat) {first : List Char} {rest : List (List Char)}

/-- The parameters are one word behind the payload type. -/
theorem Fmtp.words_value (hne : first :: rest ≠ [[]])
    (hblank : ∀ parameter ∈ first :: rest, ∀ c ∈ parameter, isBlank c = false) :
    words ([';'].intercalate ((decimal payloadType ++ ' ' :: first) :: rest)) =
      [decimal payloadType, [';'].intercalate (first :: rest)] := by
  have hparameters : IsWord ([';'].intercalate (first :: rest)) := by
    refine ⟨fun hnil => ?_, Text.forall_mem_intercalate (by decide) hblank⟩
    exact (Text.intercalate_eq_nil_iff.mp hnil).elim (List.cons_ne_nil _ _) hne
  have hvalue : [';'].intercalate ((decimal payloadType ++ ' ' :: first) :: rest) =
      unwords [decimal payloadType, [';'].intercalate (first :: rest)] := by
    cases rest <;> simp [unwords]
  rw [hvalue, words_unwords_pair (isWord_decimal payloadType) hparameters]

theorem Fmtp.splitOn_value (hmark : ∀ parameter ∈ first :: rest, ';' ∉ parameter) :
    ([';'].intercalate ((decimal payloadType ++ ' ' :: first) :: rest)).splitOn ';' =
      (decimal payloadType ++ ' ' :: first) :: rest := by
  obtain ⟨hfirst, hrest⟩ := List.forall_mem_cons.mp hmark
  have hnumber : ';' ∉ decimal payloadType := not_mem_decimal (by decide) payloadType
  refine List.splitOn_intercalate ';' (List.forall_mem_cons.mpr ⟨?_, hrest⟩) (List.cons_ne_nil _ _)
  simp [hnumber, hfirst]

end Parameters

theorem Fmtp.read_write {f : Fmtp} (h : f.Writable) : read f.write = .ok f := by
  obtain ⟨payloadType, pieces⟩ := f
  obtain ⟨first, rest, hpieces, hne, hparameters⟩ := h.pieces
  obtain rfl : pieces = .ofList (decimal payloadType ++ ' ' :: first) :: rest.map .ofList := hpieces
  have hpayloadType : Quantity.fmtpPayloadType.Holds payloadType := ⟨h.payloadType, nofun⟩
  have hwrite : write ⟨payloadType, .ofList (decimal payloadType ++ ' ' :: first) :: rest.map .ofList⟩ =
      [';'].intercalate ((decimal payloadType ++ ' ' :: first) :: rest) := by
    simp [write, Function.comp_def]
  have hwords := words_value payloadType hne fun p hp c hc => (hparameters p hp c hc).2
  have hsplit := splitOn_value payloadType fun p hp hc => (hparameters p hp ';' hc).1 rfl
  unfold read
  rw [hwrite]
  simp only [hwords, hsplit, Quantity.read_decimal hpayloadType]
  rfl

theorem Group.read_write {g : Group} (h : g.WellFormed) : read g.write = .ok g := by
  obtain ⟨semantics, tags⟩ := g
  have hwords : words (write ⟨semantics, tags⟩) = semantics.word.toList :: tags.map String.toList := by
    refine words_unwords (List.forall_mem_cons.mpr ⟨Semantics.spelled.isWord semantics, ?_⟩)
    exact List.forall_mem_map.mpr h.tags
  unfold read
  simp [hwords, Semantics.spelled.find]

theorem Msid.read_write {m : Msid} (h : m.WellFormed) : read m.write = .ok m := by
  obtain ⟨id, appdata⟩ := m
  have hwords : words (write ⟨id, appdata⟩) = id.toList :: appdata.toList.map String.toList := by
    refine words_unwords (List.forall_mem_cons.mpr ⟨h.id, ?_⟩)
    exact List.forall_mem_map.mpr fun t ht => h.appdata t (Option.mem_toList.mp ht)
  unfold read
  rw [hwords]
  cases appdata <;> simp

theorem Rtcp.read_write {r : Rtcp} (h : r.WellFormed) : read r.write = .ok r := by
  obtain ⟨port, family, address⟩ := r
  obtain rfl : address.family = family := h.family
  have hport := Quantity.rtcpPort.holds_of_port h.port
  have hwords : words (write ⟨port, address.family, address⟩) =
      [decimal port, Network.internet.toList, address.family.word.toList, address.canonical] := by
    have hinternet : IsWord Network.internet.toList := by decide
    refine words_unwords ?_
    simpa using ⟨isWord_decimal port, hinternet, Family.spelled.isWord _, address.isWord_canonical⟩
  have hnetwork : Network.readType Network.internet.toList = .ok () := rfl
  have hfamily : Network.readFamily address.family.word.toList = .ok address.family := by
    rw [Network.readFamily, Family.spelled.find]
  unfold read
  simp only [hwords, Quantity.read_decimal hport, hnetwork, hfamily, widen]
  simp only [bind, Except.bind, Network.readAddress_canonical]
  rfl

theorem RtcpFb.read_write {r : RtcpFb} (h : r.WellFormed) : read r.write = .ok r := by
  obtain ⟨payloadType, feedback⟩ := r
  obtain ⟨c, rest, hfeedback, hc⟩ : ∃ c rest, feedback.toList = c :: rest ∧ isBlank c = false :=
    h.feedback
  have hpayloadType : Quantity.rtcpFbPayloadType.Holds payloadType := ⟨h.payloadType, nofun⟩
  have hcut : Text.cutWord (write ⟨payloadType, feedback⟩) = (decimal payloadType, c :: rest) := by
    rw [write, hfeedback]
    exact Text.cutWord_append (isWord_decimal payloadType) (by decide) hc rest
  obtain rfl : feedback = .ofList (c :: rest) := by rw [← hfeedback, String.ofList_toList]
  unfold read
  simp only [hcut, Quantity.read_decimal hpayloadType]
  rfl

section Codec

variable {codec : String} {numbers : List Nat}

/-- The token of a codec and its numbers. -/
def Rtpmap.token (codec : String) (numbers : List Nat) : List Char :=
  ['/'].intercalate (codec.toList :: numbers.map decimal)

theorem Rtpmap.isWord_token (hcodec : ∀ c ∈ codec.toList, isBlank c = false)
    (hne : numbers = [] → codec ≠ "") : IsWord (token codec numbers) := by
  refine ⟨fun hnil => ?_, Text.forall_mem_intercalate (by decide) (List.forall_mem_cons.mpr ⟨hcodec, ?_⟩)⟩
  · rcases Text.intercalate_eq_nil_iff.mp hnil with hnil | hnil
    · cases hnil
    · obtain ⟨hempty, hnumbers⟩ := List.cons.inj hnil
      exact hne (List.map_eq_nil_iff.mp hnumbers) (String.toList_eq_nil_iff.mp hempty)
  · exact List.forall_mem_map.mpr fun n _ => (isWord_decimal n).2

theorem Rtpmap.splitOn_token (hcodec : '/' ∉ codec.toList) (numbers : List Nat) :
    (token codec numbers).splitOn '/' = codec.toList :: numbers.map decimal := by
  refine List.splitOn_intercalate '/' (List.forall_mem_cons.mpr ⟨hcodec, ?_⟩) (List.cons_ne_nil _ _)
  exact List.forall_mem_map.mpr fun n _ => not_mem_decimal (by decide) n

end Codec

theorem Rtpmap.read_write {r : Rtpmap} (h : r.Writable) : read r.write = .ok r := by
  obtain ⟨payloadType, codec, frequency, channels⟩ := r
  have hpayloadType : Quantity.rtpmapPayloadType.Holds payloadType := ⟨h.payloadType, nofun⟩
  have hwords {numbers : List Nat} (hne : numbers = [] → codec ≠ "") :
      words (unwords [decimal payloadType, token codec numbers]) =
        [decimal payloadType, token codec numbers] :=
    words_unwords_pair (isWord_decimal payloadType) (isWord_token (fun c hc => (h.codec c hc).2) hne)
  have hsplit := splitOn_token fun hc => (h.codec '/' hc).1 rfl
  unfold read
  cases frequency with
  | none =>
      obtain rfl : channels = none := by
        cases channels with
        | none => rfl
        | some n => exact nomatch h.frequency_of_channels rfl
      have hwrite : write ⟨payloadType, codec, none, none⟩ =
          unwords [decimal payloadType, token codec []] := by
        simp [write, token]
      rw [hwrite]
      simp only [hwords fun _ => h.codec_ne_empty rfl, hsplit, Quantity.read_decimal hpayloadType]
      simp only [List.map_nil, String.ofList_toList]
      rfl
  | some f =>
      have hf : Quantity.rtpmapFrequency.Holds f := ⟨h.frequency f rfl, nofun⟩
      cases channels with
      | none =>
          have hwrite : write ⟨payloadType, codec, some f, none⟩ =
              unwords [decimal payloadType, token codec [f]] := by
            simp [write, token]
          rw [hwrite]
          simp only [hwords fun hnil => absurd hnil (List.cons_ne_nil f _), hsplit,
            Quantity.read_decimal hpayloadType]
          simp only [List.map_cons, List.map_nil, Quantity.read_decimal hf, String.ofList_toList]
          rfl
      | some c =>
          have hc : Quantity.rtpmapChannels.Holds c := ⟨h.channels c rfl, nofun⟩
          have hwrite : write ⟨payloadType, codec, some f, some c⟩ =
              unwords [decimal payloadType, token codec [f, c]] := by
            simp [write, token]
          rw [hwrite]
          simp only [hwords fun hnil => absurd hnil (List.cons_ne_nil f _), hsplit,
            Quantity.read_decimal hpayloadType]
          simp only [List.map_cons, List.map_nil, Quantity.read_decimal hf, Quantity.read_decimal hc,
            String.ofList_toList]
          rfl

theorem Sctpmap.read_write {s : Sctpmap} (h : s.WellFormed) : read s.write = .ok s := by
  obtain ⟨port, channels⟩ := s
  have hport := Quantity.sctpmapPort.holds_of_port h.port
  have hchannels : Quantity.sctpmapChannels.Holds channels := ⟨h.channels, nofun⟩
  have hwords : words (write ⟨port, channels⟩) =
      [decimal port, Sctpmap.protocol.toList, decimal channels] := by
    have hprotocol : IsWord Sctpmap.protocol.toList := by decide
    exact words_unwords (by simpa using ⟨isWord_decimal port, hprotocol, isWord_decimal channels⟩)
  have hprotocol : Keyword.sctpmapProtocol.expect Sctpmap.protocol Sctpmap.protocol.toList = .ok () := rfl
  unfold read
  simp only [hwords, Quantity.read_decimal hport, hprotocol, Quantity.read_decimal hchannels]
  rfl

theorem Ssrc.read_write {s : Ssrc} (h : s.Writable) : read s.write = .ok s := by
  obtain ⟨id, name, value⟩ := s
  have hid : Quantity.ssrcId.Holds id := ⟨h.id, nofun⟩
  have hwords {token : List Char} (htoken : IsWord token) :
      words (unwords [decimal id, token]) = [decimal id, token] :=
    words_unwords_pair (isWord_decimal id) htoken
  unfold read write
  cases name with
  | none =>
      obtain rfl : value = none := by
        cases value with
        | none => rfl
        | some text => exact nomatch h.name_of_value rfl
      have halone : words (unwords [decimal id]) = [decimal id] :=
        words_unwords (by simpa using isWord_decimal id)
      simp only [halone, Quantity.read_decimal hid]
      rfl
  | some name =>
      have hname : ∀ c ∈ name.toList, c ≠ ':' ∧ isBlank c = false := h.name name rfl
      have hcolon : ':' ∉ name.toList := fun hc => (hname ':' hc).1 rfl
      cases value with
      | none =>
          have hne : name.toList ≠ [] := by simpa using h.name_ne_empty rfl
          have htoken : IsWord name.toList := ⟨hne, fun c hc => (hname c hc).2⟩
          simp only [hwords htoken, Quantity.read_decimal hid, Text.cut_eq_none_iff.mpr hcolon,
            String.ofList_toList]
          rfl
      | some text =>
          have htoken : IsWord (name.toList ++ ':' :: text.toList) := by
            refine ⟨by simp, List.forall_mem_append.mpr ⟨fun c hc => (hname c hc).2, ?_⟩⟩
            exact List.forall_mem_cons.mpr ⟨by decide, h.value text rfl⟩
          simp only [hwords htoken, Quantity.read_decimal hid, Text.cut_append hcolon, String.ofList_toList]
          rfl

/-! ## Candidates -/

namespace Candidate

variable {α : Type} {e : Extension} {o : Option α} {token : α → List Char}

/-- An extension that has been written is read, and one that has been left out changes nothing. -/
theorem readExtensions_namedToken {c d : Candidate} (hnone : o = none → d = c)
    (hsome : ∀ a, o = some a → e.apply (token a) c = .ok d) (rest : List (List Char)) :
    readExtensions c (namedToken e.word (o.map token) ++ rest) = readExtensions d rest := by
  cases o with
  | none =>
      rw [hnone rfl]
      rfl
  | some a =>
      have happly := hsome a rfl
      change readExtensions c (e.word.toList :: token a :: rest) = _
      rw [readExtensions, Extension.spelled.find]
      simp only [happly]
      rfl

theorem isWord_of_mem_namedToken (h : ∀ a, IsWord (token a)) :
    ∀ w ∈ namedToken e.word (o.map token), IsWord w := by
  cases o with
  | none => exact List.forall_mem_nil _
  | some a => simpa [namedToken] using ⟨Extension.spelled.isWord e, h a⟩

/-- The tokens before the extensions. -/
def mandatory (c : Candidate) : List (List Char) :=
  [c.foundation.toList, decimal c.component, c.transport.word.toList, decimal c.priority,
    c.address.canonical, decimal c.port, "typ".toList, c.type.word.toList]

/-- The candidate without extensions. -/
def bare (c : Candidate) : Candidate :=
  { c with remoteAddress := none, remotePort := none, tcpType := none }

/-- The tokens of the extensions. -/
def extensions (c : Candidate) : List (List Char) :=
  namedToken Extension.remoteAddress.word (c.remoteAddress.map Address.canonical) ++
    (namedToken Extension.remotePort.word (c.remotePort.map decimal) ++
      namedToken Extension.tcpType.word (c.tcpType.map fun t => t.word.toList))

theorem write_eq (c : Candidate) : c.write = unwords (c.mandatory ++ c.extensions) := by
  simp only [write, mandatory, extensions, List.append_assoc]
  rfl

theorem isWord_of_mem_mandatory {c : Candidate} (h : c.WellFormed) : ∀ w ∈ c.mandatory, IsWord w := by
  have htyp : IsWord "typ".toList := by decide
  simpa [mandatory] using ⟨h.foundation, isWord_decimal _, Transport.spelled.isWord _, isWord_decimal _,
    c.address.isWord_canonical, isWord_decimal _, htyp, CandidateType.spelled.isWord _⟩

theorem isWord_of_mem_extensions (c : Candidate) : ∀ w ∈ c.extensions, IsWord w := by
  refine List.forall_mem_append.mpr ⟨?_, List.forall_mem_append.mpr ⟨?_, ?_⟩⟩
  · exact isWord_of_mem_namedToken Address.isWord_canonical
  · exact isWord_of_mem_namedToken isWord_decimal
  · exact isWord_of_mem_namedToken TcpType.spelled.isWord

theorem readMandatory_mandatory {c : Candidate} (h : c.WellFormed) (value : List Char) :
    readMandatory value c.mandatory = .ok c.bare := by
  have hcomponent : Quantity.candidateComponent.Holds c.component := ⟨h.component, nofun⟩
  have hpriority : Quantity.candidatePriority.Holds c.priority := ⟨h.priority, nofun⟩
  have hport := Quantity.candidatePort.holds_of_port h.port
  have htyp : Keyword.candidateTyp.expect "typ" "typ".toList = .ok () := rfl
  unfold mandatory readMandatory
  simp only [Quantity.read_decimal hcomponent, Keyword.read_word Transport.spelled,
    Quantity.read_decimal hpriority, readAddress_canonical, Quantity.read_decimal hport, htyp,
    Keyword.read_word CandidateType.spelled, String.ofList_toList]
  rfl

theorem readExtensions_extensions {c : Candidate} (h : c.WellFormed) :
    readExtensions c.bare c.extensions = .ok c := by
  have hremoteAddress : ∀ a, c.remoteAddress = some a →
      Extension.remoteAddress.apply a.canonical c.bare =
        .ok { c with remotePort := none, tcpType := none } := by
    intro a ha
    rw [Extension.apply, readAddress_canonical, ha]
    rfl
  have hremotePort : ∀ p, c.remotePort = some p →
      Extension.remotePort.apply (decimal p) { c with remotePort := none, tcpType := none } =
        .ok { c with tcpType := none } := by
    intro p hp
    have hport := Quantity.candidateRemotePort.holds_of_port (h.remotePort p hp)
    rw [Extension.apply, Quantity.read_decimal hport, hp]
    rfl
  have htcpType : ∀ t, c.tcpType = some t →
      Extension.tcpType.apply t.word.toList { c with tcpType := none } = .ok c := by
    intro t ht
    have hc : { c with tcpType := some t } = c := by rw [← ht]
    rw [Extension.apply, Keyword.read_word TcpType.spelled]
    exact congrArg Except.ok hc
  -- From left to right each extension fills in its field, so the bare candidate becomes the whole one.
  rw [extensions, readExtensions_namedToken (fun hn => by rw [bare, hn]) hremoteAddress,
    readExtensions_namedToken (fun hn => by rw [hn]) hremotePort, ← List.append_nil (namedToken _ _),
    readExtensions_namedToken (fun hn => by rw [← hn]) htcpType]
  rfl

theorem read_write {c : Candidate} (h : c.WellFormed) : read c.write = .ok c := by
  have hwords : words c.write = c.mandatory ++ c.extensions := by
    rw [write_eq]
    exact words_unwords (List.forall_mem_append.mpr ⟨isWord_of_mem_mandatory h, isWord_of_mem_extensions c⟩)
  have htake : (c.mandatory ++ c.extensions).take mandatoryTokens = c.mandatory := List.take_left' rfl
  have hdrop : (c.mandatory ++ c.extensions).drop mandatoryTokens = c.extensions := List.drop_left' rfl
  unfold read
  simp only [hwords, htake, hdrop, readMandatory_mandatory h]
  exact readExtensions_extensions h

end Candidate

/-! ## Attributes -/

/-- The canonical text of an attribute is read as the attribute. -/
theorem Attribute.read_write_of_writable (a : Attribute) (h : a.Writable) : read a.kind a.write = .ok a := by
  cases a with
  | flag f => rfl
  | label l value => simp [read, kind, write]
  | candidate c => exact congrArg (Except.map _) (Candidate.read_write h)
  | extmap e => exact congrArg (Except.map _) (Extmap.read_write h)
  | fingerprint f => exact congrArg (Except.map _) (Fingerprint.read_write h)
  | fmtp f => exact congrArg (Except.map _) (Fmtp.read_write h)
  | group g => exact congrArg (Except.map _) (Group.read_write h)
  | iceOptions options =>
      have hwords : words (unwords (options.map String.toList)) = options.map String.toList :=
        words_unwords (List.forall_mem_map.mpr h)
      simp [read, kind, write, hwords]
  | msid m => exact congrArg (Except.map _) (Msid.read_write h)
  | rtcp r => exact congrArg (Except.map _) (Rtcp.read_write h)
  | rtcpFb r => exact congrArg (Except.map _) (RtcpFb.read_write h)
  | rtpmap r => exact congrArg (Except.map _) (Rtpmap.read_write h)
  | sctpmap s => exact congrArg (Except.map _) (Sctpmap.read_write h)
  | sctpPort port => exact congrArg (Except.map _) (Quantity.read_decimal (Quantity.sctpPort.holds_of_port h))
  | setup role => exact congrArg (Except.map _) (Keyword.read_word SetupRole.spelled _ role)
  | simulcast s => exact congrArg (Except.map _) (Simulcast.read_write h)
  | ssrc s => exact congrArg (Except.map _) (Ssrc.read_write h)

/-- An address of version 6 with a run of zeros, and all extensions. -/
theorem Attribute.read_write_of_writable_candidate :
    let a : Attribute := .candidate
      { foundation := "f", component := 1, transport := .tcp, priority := 7
        address := .v6 [0x2001, 0xdb8, 0, 0, 0, 0, 0, 1] rfl, port := 9, type := .serverReflexive
        remoteAddress := some (.v4 10 0 0 1), remotePort := some 0, tcpType := some .simultaneous }
    a.write = "f 1 tcp 7 2001:db8::1 9 typ srflx raddr 10.0.0.1 rport 0 tcptype so".toList ∧
      a.Writable ∧ read .candidate a.write = .ok a := by
  intro a
  have hwrite : a.write = "f 1 tcp 7 2001:db8::1 9 typ srflx raddr 10.0.0.1 rport 0 tcptype so".toList := by
    decide +kernel
  have hfoundation : IsWord "f".toList := by decide
  have hwritable : a.Writable :=
    { foundation := hfoundation, component := by decide, priority := by decide
      address := Address.noZone _, port := by decide
      remoteAddress := fun b _ => b.noZone
      remotePort := fun p hp => by cases hp; decide }
  exact ⟨hwrite, hwritable, read_write_of_writable a hwritable⟩

end Sdp
