import Sdp.Attribute.Writable
import Sdp.Proofs.Attribute.Spelling

/-!
# Streams survive their text

Main statement: `Simulcast.read_write`, a simulcast that has been written is read as itself.
-/

namespace Sdp

open Text (IsWord isBlank words words_unwords)

/-! ## Names of streams -/

theorem StreamId.ofToken_write {s : StreamId} (h : s.paused = false → s.id.toList.head? ≠ some '~') :
    ofToken s.write = s := by
  obtain ⟨id, paused⟩ := s
  cases paused with
  | true => simp [write, ofToken]
  | false =>
      have hmark : id.toList.head? ≠ some '~' := h rfl
      unfold write ofToken
      split
      · next rest hid => exact absurd (congrArg List.head? hid) hmark
      · simp

theorem StreamId.forall_mem_write {s : StreamId} (h : s.WellFormed) :
    ∀ c ∈ s.write, c ≠ ',' ∧ c ≠ ';' ∧ isBlank c = false := by
  unfold write
  split
  · exact List.forall_mem_cons.mpr ⟨by decide, h⟩
  · exact h

theorem StreamId.eq_of_write_eq_nil {s : StreamId} (h : s.write = []) : s = ⟨"", false⟩ := by
  obtain ⟨id, paused⟩ := s
  cases paused with
  | true => cases h
  | false =>
      obtain rfl : id = "" := String.toList_eq_nil_iff.mp h
      rfl

/-! ## Sides -/

namespace Simulcast

/-- The streams of a side that can be written, if there are any. -/
structure Listed (streams : List (List StreamId)) : Prop where
  alternatives : ∀ ids ∈ streams, ids ≠ [] ∧ ∀ id ∈ ids, id.WellFormed
  unmarked : ∀ ids ∈ streams, ∀ id ∈ ids, id.paused = false → id.id.toList.head? ≠ some '~'
  ne_empty : streams ≠ [[⟨"", false⟩]]

variable {streams : List (List StreamId)}

/-- The text of some alternatives. -/
def writeAlternatives (ids : List StreamId) : List Char :=
  [','].intercalate (ids.map StreamId.write)

theorem forall_mem_writeAlternatives {ids : List StreamId} (h : ∀ id ∈ ids, id.WellFormed) :
    ∀ c ∈ writeAlternatives ids, c ≠ ';' ∧ isBlank c = false := by
  refine Text.forall_mem_intercalate (by decide) (List.forall_mem_map.mpr fun id hid c hc => ?_)
  exact (StreamId.forall_mem_write (h id hid) c hc).2

theorem splitOn_writeAlternatives {ids : List StreamId} (hne : ids ≠ []) (h : ∀ id ∈ ids, id.WellFormed) :
    (writeAlternatives ids).splitOn ',' = ids.map StreamId.write := by
  refine List.splitOn_intercalate ',' (List.forall_mem_map.mpr fun id hid hc => ?_) (by simpa using hne)
  exact (StreamId.forall_mem_write (h id hid) ',' hc).1 rfl

theorem map_ofToken_write {ids : List StreamId}
    (h : ∀ id ∈ ids, id.paused = false → id.id.toList.head? ≠ some '~') :
    (ids.map StreamId.write).map StreamId.ofToken = ids := by
  rw [List.map_map]
  exact (List.map_congr_left fun id hid => StreamId.ofToken_write (h id hid)).trans (List.map_id' ids)

theorem readStreams_writeStreams (h : Listed streams) (hne : streams ≠ []) :
    readStreams (writeStreams streams) = streams := by
  have hsplit : (writeStreams streams).splitOn ';' = streams.map writeAlternatives := by
    refine List.splitOn_intercalate ';' (List.forall_mem_map.mpr fun ids hids hc => ?_) (by simpa using hne)
    exact (forall_mem_writeAlternatives (h.alternatives ids hids).2 ';' hc).1 rfl
  have hread : ∀ ids ∈ streams, ((writeAlternatives ids).splitOn ',').map StreamId.ofToken = ids := by
    intro ids hids
    obtain ⟨hne, hwf⟩ := h.alternatives ids hids
    rw [splitOn_writeAlternatives hne hwf, map_ofToken_write (h.unmarked ids hids)]
  rw [readStreams, hsplit, List.map_map]
  exact (List.map_congr_left hread).trans (List.map_id' streams)

theorem isWord_writeStreams (h : Listed streams) (hne : streams ≠ []) : IsWord (writeStreams streams) := by
  constructor
  · intro hnil
    rcases Text.intercalate_eq_nil_iff.mp hnil with hnil | hnil
    · exact hne (List.map_eq_nil_iff.mp hnil)
    · obtain ⟨ids, rfl, hids⟩ := List.map_eq_singleton_iff.mp hnil
      rcases Text.intercalate_eq_nil_iff.mp hids with hids | hids
      · exact (h.alternatives ids (List.mem_singleton_self ids)).1 (List.map_eq_nil_iff.mp hids)
      · obtain ⟨id, rfl, hid⟩ := List.map_eq_singleton_iff.mp hids
        exact h.ne_empty (by rw [StreamId.eq_of_write_eq_nil hid])
  · refine Text.forall_mem_intercalate (by decide) (List.forall_mem_map.mpr fun ids hids c hc => ?_)
    exact (forall_mem_writeAlternatives (h.alternatives ids hids).2 c hc).2

/-- A side that has been written gives its streams back, and one that has been left out leaves none. -/
theorem readSides_writeSide (h : Listed streams) {value : List Char} {s : Simulcast} {side : Side}
    (hs : s.put side [] = s) (rest : List (List Char)) :
    readSides value s (writeSide side.word streams ++ rest) = readSides value (s.put side streams) rest := by
  cases streams with
  | nil => rw [hs, writeSide, List.isEmpty_nil, if_pos rfl, List.nil_append]
  | cons ids streams =>
      have hread := readStreams_writeStreams h (List.cons_ne_nil ids streams)
      rw [writeSide, List.isEmpty_cons, if_neg Bool.false_ne_true, List.cons_append, List.singleton_append,
        readSides, Keyword.read_word Side.spelled, hread]
      rfl

theorem eq_nil_of_writeSide {word : String} (h : writeSide word streams = []) : streams = [] := by
  unfold writeSide at h
  split at h
  · next hempty => exact List.isEmpty_iff.mp hempty
  · cases h

theorem isWord_of_mem_writeSide (h : Listed streams) (side : Side) :
    ∀ w ∈ writeSide side.word streams, IsWord w := by
  unfold writeSide
  split
  · exact List.forall_mem_nil _
  · next hne =>
      have hstreams := isWord_writeStreams h (fun hnil => hne (List.isEmpty_iff.mpr hnil))
      simpa using ⟨Side.spelled.isWord side, hstreams⟩

theorem read_write {s : Simulcast} (h : s.Writable) : read s.write = .ok s := by
  obtain ⟨send, receive⟩ := s
  have hsend : Listed send :=
    { alternatives := fun ids hids => h.alternatives ids (List.mem_append_left _ hids)
      unmarked := fun ids hids => h.unmarked ids (List.mem_append_left _ hids)
      ne_empty := h.streams send (by simp) }
  have hreceive : Listed receive :=
    { alternatives := fun ids hids => h.alternatives ids (List.mem_append_right _ hids)
      unmarked := fun ids hids => h.unmarked ids (List.mem_append_right _ hids)
      ne_empty := h.streams receive (by simp) }
  have hwords : words (write ⟨send, receive⟩) =
      writeSide Side.send.word send ++ writeSide Side.receive.word receive :=
    words_unwords (List.forall_mem_append.mpr
      ⟨isWord_of_mem_writeSide hsend .send, isWord_of_mem_writeSide hreceive .receive⟩)
  unfold read
  rw [hwords]
  split
  · next hnil =>
      obtain ⟨hsend, hreceive⟩ := List.append_eq_nil_iff.mp hnil
      exact (h.side.elim (· (eq_nil_of_writeSide hsend)) (· (eq_nil_of_writeSide hreceive))).elim
  · have hrest : readSides (write ⟨send, receive⟩) ⟨send, []⟩ (writeSide Side.receive.word receive) =
        .ok ⟨send, receive⟩ := by
      rw [← List.append_nil (writeSide _ _), readSides_writeSide hreceive rfl]
      rfl
    rw [readSides_writeSide hsend rfl]
    exact hrest

end Simulcast

end Sdp
