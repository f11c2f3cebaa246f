import Sdp.Proofs.Attribute.Number
import Sdp.Proofs.Session.Meaning

/-!
# Numbers are read exactly

Main statement: `numbers_exact`, on every number of an attribute and on the port of a media description,
whatever the length of its text.
-/

namespace Sdp

open Text (words)
open Numeral (Denotes IsUnsigned ofDigits significant unsignedDigits?)

namespace Item

variable {value type port protocol : List Char} {formats : List (List Char)} {item : Item} {e : Fault Problem}

theorem readPort?_eq_none_iff :
    readPort? port = none ↔ ∀ n ≤ 65535, ¬ Denotes 10 n (port.takeWhile (· ≠ '/')) := by
  rw [Option.eq_none_iff_forall_ne_some]
  refine forall_congr' fun n => ?_
  rw [Ne, readPort?_eq_some_iff, Numeral.readDecimal?_eq_some_iff, not_and, Nat.lt_succ_iff]
  exact ⟨fun h hn hdigits => h hdigits hn, fun h hdigits hn => h hn hdigits⟩

theorem readMedia_of_port_eq_none (h : words value = type :: port :: protocol :: formats) (hne : formats ≠ [])
    (hport : readPort? port = none) : readMedia value = .error (fault .port port) := by
  cases formats with
  | nil => exact absurd rfl hne
  | cons format formats =>
      unfold readMedia
      simp only [h, hport]

theorem readMedia_eq_ok_iff (h : words value = type :: port :: protocol :: formats) (hne : formats ≠ []) :
    readMedia value = .ok item ↔
      ∃ n, Denotes 10 n (port.takeWhile (· ≠ '/')) ∧ n ≤ 65535 ∧
        item = .media
          { type := .ofList type, port := n, protocol := .ofList protocol, formats := formats.map .ofList } := by
  constructor
  · intro hitem
    cases hport : readPort? port with
    | none => cases (readMedia_of_port_eq_none h hne hport).symm.trans hitem
    | some n =>
        obtain ⟨hdigits, hbound⟩ := readPort?_eq_some_iff.mp hport
        cases (readMedia_of_words h hne hport).symm.trans hitem
        exact ⟨n, Numeral.readDecimal?_eq_some_iff.mp hdigits, Nat.le_of_lt_succ hbound, rfl⟩
  · rintro ⟨n, hdigits, hbound, rfl⟩
    have hport : readPort? port = some n :=
      readPort?_eq_some_iff.mpr ⟨Numeral.readDecimal?_eq_some_iff.mpr hdigits, Nat.lt_succ_of_le hbound⟩
    exact readMedia_of_words h hne hport

theorem readMedia_eq_error_iff (h : words value = type :: port :: protocol :: formats) (hne : formats ≠ []) :
    readMedia value = .error e ↔
      (∀ n ≤ 65535, ¬ Denotes 10 n (port.takeWhile (· ≠ '/'))) ∧ e = fault .port port := by
  rw [← readPort?_eq_none_iff]
  constructor
  · intro he
    cases hport : readPort? port with
    | none =>
        cases (readMedia_of_port_eq_none h hne hport).symm.trans he
        exact ⟨rfl, rfl⟩
    | some n => cases (readMedia_of_words h hne hport).symm.trans he
  · rintro ⟨hport, rfl⟩
    exact readMedia_of_port_eq_none h hne hport

end Item

theorem LineReading.item_ofLine_of_media {line value : List Char} (mode : Mode) (field : IsField line 'm' value) :
    (ofLine mode line).item = Item.readMedia value := by
  rw [ofLine, (isField_iff (by decide)).mp field]
  rfl

/-- A number of an attribute is read just if it is digits with a value within its bounds, behind a plus sign
or not; every other text is malformed and blamed as a whole, and counting digits before they are converted
loses no number within the bound. The port of a media description is read just if what stands before the
first slash is digits with a value of sixteen bits; otherwise its token is blamed. -/
theorem numbers_exact :
    (∀ (q : Quantity) (s : List Char),
      (∀ n, q.read s = .ok n ↔ IsUnsigned n s ∧ n < q.bound ∧ (q.isPort → n ≤ 65535)) ∧
      (∀ e, q.read s = .error e ↔ ∃ d, NumberDefect.Applies q s d ∧ e = fault (.number q d) s) ∧
      (∀ e, q.read s = .error e → e.cause.errorClass = .malformed) ∧
      (∀ ds, unsignedDigits? s = some ds → ofDigits 10 ds < q.bound →
        (significant ds).length ≤ Quantity.width.most)) ∧
    (∀ mode line value type port protocol formats, IsField line 'm' value →
      words value = type :: port :: protocol :: formats → formats ≠ [] →
      (∀ item, (LineReading.ofLine mode line).item = .ok item ↔
        ∃ n, Denotes 10 n (port.takeWhile (· ≠ '/')) ∧ n ≤ 65535 ∧
          item = .media
            { type := .ofList type, port := n, protocol := .ofList protocol, formats := formats.map .ofList }) ∧
      (∀ e, (LineReading.ofLine mode line).item = .error e ↔
        (∀ n ≤ 65535, ¬ Denotes 10 n (port.takeWhile (· ≠ '/'))) ∧ e = fault .port port) ∧
      (∀ e, (LineReading.ofLine mode line).item = .error e → e.cause.errorClass = .description)) := by
  refine ⟨fun q s => ⟨fun n => ?_, fun e => Quantity.read_eq_error_iff, fun e he => ?_, fun ds hds =>
    Quantity.length_significant_le hds⟩, fun mode line value type port protocol formats field hwords hne => ?_⟩
  · rw [Quantity.read_eq_ok_iff, Quantity.Holds]
    exact and_congr_right fun _ => and_congr_right fun _ => forall_congr' fun _ => Nat.lt_succ_iff
  · obtain ⟨d, -, rfl⟩ := Quantity.read_eq_error_iff.mp he
    rfl
  · rw [LineReading.item_ofLine_of_media mode field]
    refine ⟨fun item => Item.readMedia_eq_ok_iff hwords hne, fun e => Item.readMedia_eq_error_iff hwords hne,
      fun e he => ?_⟩
    obtain ⟨-, rfl⟩ := (Item.readMedia_eq_error_iff hwords hne).mp he
    rfl

/-- The largest priority behind many zeros, a port of seventeen bits, and a media port with a sign. -/
theorem numbers_exact_of_long_texts :
    let priority := '+' :: List.replicate 30 '0' ++ "18446744073709551615".toList
    let line := "m=audio 0000065535/2 RTP/AVP 0".toList
    let signed := "m=audio +9 RTP/AVP 0".toList
    Quantity.candidatePriority.read priority = .ok 18446744073709551615 ∧
      Quantity.rtcpPort.read "65536".toList = .error (fault (.number .rtcpPort .notPort) "65536".toList) ∧
      IsField line 'm' (line.drop 2) ∧ IsField signed 'm' (signed.drop 2) ∧
      (LineReading.ofLine .strict line).item =
        .ok (.media { type := "audio", port := 65535, protocol := "RTP/AVP", formats := ["0"] }) ∧
      (LineReading.ofLine .lenient signed).item = .error (fault .port "+9".toList) := by
  intro priority line signed
  obtain ⟨hnumbers, hports⟩ := numbers_exact
  have hpriority : IsUnsigned 18446744073709551615 priority :=
    Or.inr ⟨priority.tail, rfl, Numeral.readDecimal?_eq_some_iff.mp (by decide +kernel)⟩
  have hport : IsUnsigned 65536 "65536".toList :=
    Or.inl (Numeral.readDecimal?_eq_some_iff.mp (by decide +kernel))
  have field : Text.trim line = 'm' :: '=' :: line.drop 2 := by decide +kernel
  have field' : Text.trim signed = 'm' :: '=' :: signed.drop 2 := by decide +kernel
  have hdigits : Denotes 10 65535 ("0000065535/2".toList.takeWhile (· ≠ '/')) :=
    Numeral.readDecimal?_eq_some_iff.mp (by decide +kernel)
  have hsigned : ∀ n ≤ 65535, ¬ Denotes 10 n ("+9".toList.takeWhile (· ≠ '/')) :=
    Item.readPort?_eq_none_iff.mp (by decide +kernel)
  refine ⟨((hnumbers _ _).1 _).mpr ⟨hpriority, by decide, nofun⟩,
    ((hnumbers _ _).2.1 _).mpr ⟨.notPort, ⟨rfl, _, hport, by decide, by decide⟩, rfl⟩, field, field', ?_, ?_⟩
  · exact ((hports .strict line _ "audio".toList _ "RTP/AVP".toList ["0".toList] field (by decide +kernel)
      (by decide)).1 _).mpr ⟨65535, hdigits, by decide, rfl⟩
  · exact ((hports .lenient signed _ "audio".toList _ "RTP/AVP".toList ["0".toList] field' (by decide +kernel)
      (by decide)).2.1 _).mpr ⟨hsigned, rfl⟩

end Sdp
