import Sdp.Attribute.Listing
import Sdp.Proofs.Attribute.Grammar
import Sdp.Proofs.Attribute.Streams

/-!
# Simulcasts are read without loss

Main statement: `Simulcast.read_lossless`. Its two parts are `writeStreams_readStreams`, a list is
written back as it was, and `streams_of_readSides`, the last list of a side counts.
-/

namespace Sdp

open Text (IsWord words)

theorem StreamId.write_ofToken (t : List Char) : (ofToken t).write = t := by
  unfold ofToken
  split
  · simp [write]
  · simp [write]

theorem StreamId.unmarked_ofToken (t : List Char) (h : (ofToken t).paused = false) :
    (ofToken t).id.toList.head? ≠ some '~' := by
  unfold ofToken at h ⊢
  split at h
  · cases h
  · next hmark =>
      rw [String.toList_ofList]
      intro hhead
      obtain ⟨rest, rfl⟩ := List.head?_eq_some_iff.mp hhead
      exact hmark rest rfl

namespace Simulcast

open Candidate (IsOneOf IsWordOf isOneOf_iff)

variable {w value : List Char} {tokens : List (List Char)} {side : Side}

/-! ## One list -/

theorem writeStreams_readStreams (w : List Char) : writeStreams (readStreams w) = w := by
  have hids : ∀ alternatives : List Char,
      [','].intercalate (((alternatives.splitOn ',').map StreamId.ofToken).map StreamId.write) =
        alternatives := by
    intro alternatives
    have hid : StreamId.write ∘ StreamId.ofToken = id := funext StreamId.write_ofToken
    rw [List.map_map, hid, List.map_id, List.intercalate_splitOn]
  have hid : ((fun ids => [','].intercalate (ids.map StreamId.write)) ∘
      fun alternatives : List Char => (alternatives.splitOn ',').map StreamId.ofToken) = id :=
    funext hids
  rw [writeStreams, readStreams, List.map_map, hid, List.map_id, List.intercalate_splitOn]

theorem readStreams_injective : Function.Injective readStreams :=
  Function.LeftInverse.injective writeStreams_readStreams

theorem lists_readStreams (hw : IsWord w) : Lists w (readStreams w) where
  written := writeStreams_readStreams w
  ne_nil := readStreams_ne_nil w
  alternatives := alternatives_readStreams hw
  unmarked ids hids id hid := by
    obtain ⟨alternatives, -, rfl⟩ := List.mem_map.mp hids
    obtain ⟨t, -, rfl⟩ := List.mem_map.mp hid
    exact StreamId.unmarked_ofToken t

/-- A word lists what is read from it and nothing else. -/
theorem lists_iff (hw : IsWord w) {streams : List (List StreamId)} :
    Lists w streams ↔ readStreams w = streams := by
  constructor
  · intro h
    have hne : streams ≠ [[⟨"", false⟩]] := by
      rintro rfl
      exact hw.1 h.written.symm
    rw [← h.written]
    exact readStreams_writeStreams ⟨h.alternatives, h.unmarked, hne⟩ h.ne_nil
  · rintro rfl
    exact lists_readStreams hw

/-! ## Sides in turn -/

theorem Side.plain_word (side : Side) : Text.Plain side.word.toList := by
  cases side <;> decide

/-- A token is read as the side that it names. -/
theorem Side.decides_read (w : List Char) :
    Decides (IsWordOf Side.word w) w (Keyword.simulcastDirection.read Side.all Side.word w) :=
  Keyword.decides_read _ Side.spelled Side.plain_word w

theorem Side.isOneOf_iff : IsOneOf ["send", "recv"] w ↔ ∃ side : Side, side.IsNamed w :=
  Candidate.isOneOf_iff Side.spelled rfl

theorem Side.IsNamed.unique {side' : Side} (h : side.IsNamed w) (h' : side'.IsNamed w) : side = side' :=
  Except.ok.inj ((((decides_read w).ok_iff side).mpr h).symm.trans (((decides_read w).ok_iff side').mpr h'))

theorem inTurns_nil : InTurns [] :=
  ⟨rfl, fun _ _ h => nomatch h⟩

theorem inTurns_cons_cons {word list : List Char} :
    InTurns (word :: list :: tokens) ↔ IsOneOf ["send", "recv"] word ∧ InTurns tokens := by
  constructor
  · rintro ⟨heven, hsides⟩
    refine ⟨hsides 0 word rfl, ?_, fun i w hw => hsides (i + 1) w hw⟩
    simpa only [List.length_cons, Nat.add_assoc, Nat.add_mod_right] using heven
  · rintro ⟨hword, heven, hsides⟩
    refine ⟨?_, fun i w hw => ?_⟩
    · simpa only [List.length_cons, Nat.add_assoc, Nat.add_mod_right] using heven
    · cases i with
      | zero =>
          obtain rfl : word = w := Option.some.inj hw
          exact hword
      | succ i => exact hsides i w hw

theorem isOk_readSides_iff (s : Simulcast) : (readSides value s tokens).isOk ↔ InTurns tokens := by
  fun_induction readSides value s tokens with
  | case1 s => exact iff_of_true rfl inTurns_nil
  | case2 s word =>
      refine iff_of_false ?_ fun h => absurd h.even (by simp)
      rcases (Side.decides_read word).cases with ⟨side, hread, -⟩ | ⟨-, e, hread, -⟩
      · rw [hread]
        exact Bool.false_ne_true
      · rw [hread]
        exact Bool.false_ne_true
  | case3 s word list rest ih =>
      rw [inTurns_cons_cons, Side.isOneOf_iff]
      rcases (Side.decides_read word).cases with ⟨side, hread, hside⟩ | ⟨hnone, e, hread, -⟩
      · rw [hread]
        exact (ih side).trans (and_iff_right ⟨side, hside⟩).symm
      · rw [hread]
        exact iff_of_false Bool.false_ne_true fun h => h.1.elim hnone

theorem streams_put_self (s : Simulcast) (side : Side) (list : List (List StreamId)) :
    (s.put side list).streams side = list := by
  cases side <;> rfl

theorem streams_put_of_ne (s : Simulcast) {side side' : Side} (h : side ≠ side')
    (list : List (List StreamId)) : (s.put side list).streams side' = s.streams side' := by
  cases side <;> cases side' <;> first | rfl | exact absurd rfl h

theorem IsLastList.cons_cons (h : IsLastList side tokens w) (word list : List Char) :
    IsLastList side (word :: list :: tokens) w := by
  obtain ⟨i, name, hname, hside, hw, hlater⟩ := h
  refine ⟨i + 1, name, hname, hside, hw, fun j hj other hother => ?_⟩
  obtain ⟨j, rfl⟩ := Nat.exists_eq_add_of_lt hj
  exact hlater (i + 1 + j) (by omega) other hother

theorem isLastList_of_isUnnamed {word : List Char} (hword : side.IsNamed word) (h : IsUnnamed side tokens)
    (list : List Char) : IsLastList side (word :: list :: tokens) list := by
  refine ⟨0, word, rfl, hword, rfl, fun j hj other hother => ?_⟩
  obtain ⟨j, rfl⟩ := Nat.exists_eq_add_of_lt hj
  exact h (0 + j) other hother

theorem isUnnamed_cons_cons {word : List Char} (hword : ¬ side.IsNamed word) (h : IsUnnamed side tokens)
    (list : List Char) : IsUnnamed side (word :: list :: tokens) := by
  intro i name hname
  cases i with
  | zero =>
      obtain rfl : word = name := Option.some.inj hname
      exact hword
  | succ i => exact h i name hname

/-- A side has the streams of its last list, or those that it had before. -/
theorem streams_of_readSides {s s' : Simulcast} (h : readSides value s tokens = .ok s') (side : Side) :
    (∃ w, IsLastList side tokens w ∧ s'.streams side = readStreams w) ∨
    (IsUnnamed side tokens ∧ s'.streams side = s.streams side) := by
  fun_induction readSides value s tokens with
  | case1 s =>
      cases h
      exact Or.inr ⟨fun _ _ hname => absurd hname (by simp), rfl⟩
  | case2 s word =>
      obtain ⟨_, -, h⟩ := bind_eq_ok_iff.mp h
      cases h
  | case3 s word list rest ih =>
      obtain ⟨named, hread, h⟩ := bind_eq_ok_iff.mp h
      have hword : named.IsNamed word := ((Side.decides_read word).ok_iff named).mp hread
      rcases ih named h with ⟨w, hlast, hstreams⟩ | ⟨hunnamed, hstreams⟩
      · exact Or.inl ⟨w, hlast.cons_cons word list, hstreams⟩
      · by_cases hside : named = side
        · subst hside
          rw [streams_put_self] at hstreams
          exact Or.inl ⟨list, isLastList_of_isUnnamed hword hunnamed list, hstreams⟩
        · rw [streams_put_of_ne s hside] at hstreams
          exact Or.inr ⟨isUnnamed_cons_cons (fun h => hside (hword.unique h)) hunnamed list, hstreams⟩

/-! ## Simulcasts -/

theorem isOk_read_iff : (read value).isOk ↔ words value ≠ [] ∧ InTurns (words value) := by
  unfold read
  split
  · next hnil => exact iff_of_false Bool.false_ne_true fun h => h.1 hnil
  · next hne => exact (isOk_readSides_iff _).trans (and_iff_right hne).symm

theorem streams_of_read {s : Simulcast} (h : read value = .ok s) (side : Side) :
    (∃ w, IsLastList side (words value) w ∧ s.streams side = readStreams w) ∨
    (IsUnnamed side (words value) ∧ s.streams side = []) := by
  unfold read at h
  split at h
  · cases h
  · have hempty : streams ⟨[], []⟩ side = [] := by cases side <;> rfl
    exact hempty ▸ streams_of_readSides h side

theorem IsLastList.isWord (h : IsLastList side (words value) w) : IsWord w := by
  obtain ⟨_, _, -, -, hw, -⟩ := h
  exact Text.isWord_of_mem_words (List.mem_of_getElem? hw)

theorem holdsLast_of_read {s : Simulcast} (h : read value = .ok s) (side : Side) :
    HoldsLast side (words value) (s.streams side) := by
  rcases streams_of_read h side with ⟨w, hlast, hstreams⟩ | ⟨hunnamed, hstreams⟩
  · rw [hstreams]
    exact .list hlast (lists_readStreams hlast.isWord)
  · rw [hstreams]
    exact .none hunnamed

theorem read_attribute_eq_ok_iff {a : Attribute} :
    Attribute.read .simulcast value = .ok a ↔ ∃ s, read value = .ok s ∧ .simulcast s = a :=
  map_eq_ok_iff

/-- A simulcast is read just if sides and lists take turns in it. Each side has the streams that its last
list stands for, and a list stands for the streams that are written like it and for no others, so that
different lists stand for different streams. -/
theorem read_lossless (value : List Char) :
    ((∃ a, Attribute.read .simulcast value = .ok a) ↔
      words value ≠ [] ∧ (words value).length % 2 = 0 ∧
        ∀ i w, (words value)[2 * i]? = some w → IsOneOf ["send", "recv"] w) ∧
    (∀ a, Attribute.read .simulcast value = .ok a →
      ∃ s, a = .simulcast s ∧ ∀ side, HoldsLast side (words value) (s.streams side)) ∧
    (∀ w ∈ words value, ∀ streams, Lists w streams ↔ readStreams w = streams) ∧
    (∀ w, writeStreams (readStreams w) = w) ∧ Function.Injective readStreams := by
  refine ⟨?_, fun a ha => ?_, fun w hw streams => lists_iff (Text.isWord_of_mem_words hw),
    writeStreams_readStreams, readStreams_injective⟩
  · rw [Attribute.read, exists_map_eq_ok_iff, ← isOk_iff, isOk_read_iff]
    exact and_congr_right fun _ => ⟨fun h => ⟨h.even, h.sides⟩, fun h => ⟨h.1, h.2⟩⟩
  · obtain ⟨s, hs, rfl⟩ := read_attribute_eq_ok_iff.mp ha
    exact ⟨s, rfl, holdsLast_of_read hs⟩

/-- A side that is named twice, two tildes in a row, and a list that ends with a mark. -/
theorem read_lossless_of_renamed_side :
    let value := "send 1 recv a,~b Send ~~x;".toList
    let s : Simulcast := ⟨[[⟨"~x", true⟩], [⟨"", false⟩]], [[⟨"a", false⟩, ⟨"b", true⟩]]⟩
    Attribute.read .simulcast value = .ok (.simulcast s) ∧
      (∀ side, HoldsLast side (words value) (s.streams side)) ∧
      Lists "~~x;".toList s.send ∧ writeStreams s.send = "~~x;".toList := by
  intro value s
  have hread : Attribute.read .simulcast value = .ok (.simulcast s) := by decide +kernel
  obtain ⟨-, hlast, hlists, -, -⟩ := read_lossless value
  obtain ⟨_, hs, hsides⟩ := hlast _ hread
  cases hs
  have hsend : Lists "~~x;".toList s.send := (hlists _ (by decide +kernel) _).mpr (by decide +kernel)
  exact ⟨hread, hsides, hsend, hsend.written⟩

end Simulcast

end Sdp
