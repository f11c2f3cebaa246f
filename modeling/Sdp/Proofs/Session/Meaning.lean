import Sdp.Proofs.Numeral.Width
import Sdp.Proofs.Session.Sanitised
import Sdp.Session.Meaning

/-!
# Lines are read as they are meant

Main statement: `LineReading.ofLine_eq_ok_iff`, a reader takes a line for just what it says.
-/

namespace Sdp

open Text (cut trim words)

namespace Text

theorem takeWhile_of_cut_eq_none {mark : Char} {s : List Char} (h : cut mark s = none) :
    s.takeWhile (· ≠ mark) = s := by
  have hmem := cut_eq_none_iff.mp h
  exact List.takeWhile_eq_self_iff.mpr fun c hc => decide_eq_true fun he => hmem (he ▸ hc)

theorem takeWhile_of_cut_eq_some {mark : Char} {s before after : List Char}
    (h : cut mark s = some (before, after)) : s.takeWhile (· ≠ mark) = before := by
  obtain ⟨rfl, hmem⟩ := eq_of_cut_eq_some h
  have hbefore : ∀ c ∈ before, decide (c ≠ mark) := fun c hc => decide_eq_true fun he => hmem (he ▸ hc)
  rw [List.takeWhile_append_of_pos hbefore, List.takeWhile_cons_of_neg (by simp), List.append_nil]

end Text

/-! ## Fields -/

theorem isField_iff {line value : List Char} {letter : Char} (hletter : letter ≠ '=') :
    IsField line letter value ↔ cut '=' (trim line) = some ([letter], value) := by
  constructor
  · intro h
    rw [IsField] at h
    rw [h]
    have hmem : '=' ∉ [letter] := by simpa using hletter.symm
    exact Text.cut_append hmem value
  · intro h
    exact (Text.eq_of_cut_eq_some h).1

theorem ne_equals_of_mem {letter : Char} (h : letter ∈ fieldLetters) : letter ≠ '=' := by
  rintro rfl
  exact absurd h (by decide)

/-- Digits that are too many for a port have no value of one. -/
theorem bind_portWidth_eq_some_iff {s : List Char} {n : Nat} :
    (((Numeral.decimalDigits? s).bind Item.portWidth.value?).bind fun m => if m < 0x10000 then some m else none) =
      some n ↔ Numeral.readDecimal? s = some n ∧ n < 0x10000 := by
  rw [Numeral.readDecimal?]
  cases hds : Numeral.decimalDigits? s with
  | none => simp
  | some ds =>
      have hlt := (Numeral.decimalDigits?_eq_some_iff.mp hds).2.1
      rw [Option.bind_some, Option.map_some, Option.some.injEq]
      constructor
      · intro h
        obtain ⟨m, hm, h⟩ := Option.bind_eq_some_iff.mp h
        obtain ⟨hbound, hn⟩ := Option.ite_none_right_eq_some.mp h
        cases hn
        exact ⟨Numeral.Width.ofDigits_of_value? hm, hbound⟩
      · rintro ⟨rfl, hbound⟩
        have hsmall : Numeral.ofDigits 10 ds < Nat.pow 10 5 := Nat.lt_trans hbound (by decide)
        have hvalue : Item.portWidth.value? ds = some (Numeral.ofDigits 10 ds) :=
          Numeral.Width.value?_of_lt hlt (by decide : 4 < 5) hsmall
        rw [hvalue, Option.bind_some, if_pos hbound]

theorem readPort?_eq_some_iff {port : List Char} {n : Nat} :
    Item.readPort? port = some n ↔
      Numeral.readDecimal? (port.takeWhile (· ≠ '/')) = some n ∧ n < 0x10000 := by
  unfold Item.readPort?
  cases hcut : cut '/' port with
  | none =>
      rw [Text.takeWhile_of_cut_eq_none hcut]
      exact bind_portWidth_eq_some_iff
  | some parts =>
      obtain ⟨before, after⟩ := parts
      rw [Text.takeWhile_of_cut_eq_some hcut]
      exact bind_portWidth_eq_some_iff

/-! ## Connections and media descriptions -/

namespace Item

variable {line value : List Char} {item : Item}

theorem readConnection_of_words {network family address : List Char}
    (h : words value = [network, family, address]) (hnetwork : (Network.readType network).isOk)
    (hfamily : (Network.readFamily family).isOk) :
    readConnection value = .ok (.connection (.ofList address)) := by
  obtain ⟨u, ht⟩ := isOk_iff.mp hnetwork
  obtain ⟨f, hf⟩ := isOk_iff.mp hfamily
  unfold readConnection
  simp only [h, ht, hf]
  rfl

theorem says_of_readConnection (field : IsField line 'c' value) (h : readConnection value = .ok item) :
    Says line item := by
  unfold readConnection at h
  split at h
  · next network family address tokens =>
      obtain ⟨u, ht, h⟩ := bind_eq_ok_iff.mp h
      obtain ⟨f, hf, hitem⟩ := bind_eq_ok_iff.mp h
      cases hitem
      exact .connection field tokens (isOk_iff.mpr ⟨u, widen_eq_ok_iff.mp ht⟩)
        (isOk_iff.mpr ⟨f, widen_eq_ok_iff.mp hf⟩)
  · cases h

theorem readMedia_of_words {type port protocol : List Char} {formats : List (List Char)} {n : Nat}
    (h : words value = type :: port :: protocol :: formats) (hne : formats ≠ [])
    (hport : readPort? port = some n) :
    readMedia value = .ok (.media
      { type := .ofList type, port := n, protocol := .ofList protocol, formats := formats.map .ofList }) := by
  cases formats with
  | nil => exact absurd rfl hne
  | cons format formats =>
      unfold readMedia
      simp only [h, hport]

theorem says_of_readMedia (field : IsField line 'm' value) (h : readMedia value = .ok item) :
    Says line item := by
  unfold readMedia at h
  split at h
  · next type port protocol format formats tokens =>
      split at h
      · cases h
      · next n hport =>
          obtain ⟨digits, bound⟩ := readPort?_eq_some_iff.mp hport
          cases h
          exact .media field tokens (List.cons_ne_nil _ _) digits bound
  · cases h

end Item

/-! ## What a line says -/

namespace LineReading

variable {line : List Char} {item : Item}

theorem says_of_ofLine (h : (ofLine .strict line).item = .ok item) : Says line item := by
  unfold ofLine at h
  split at h
  · next hcut =>
      cases h
      refine .nothing fun letter hletter value hfield => ?_
      cases hcut.symm.trans ((isField_iff (ne_equals_of_mem hletter)).mp hfield)
  · next field value hcut =>
      have hfield {letter : Char} (hl : letter ≠ '=') (he : field = [letter]) : IsField line letter value :=
        (isField_iff hl).mpr (he ▸ hcut)
      split at h
      · cases h
        exact .version (hfield (by decide) rfl)
      · cases h
        exact .origin (hfield (by decide) rfl)
      · cases h
        exact .name (hfield (by decide) rfl)
      · exact Item.says_of_readConnection (hfield (by decide) rfl) h
      · cases h
        exact .timing (hfield (by decide) rfl)
      · exact Item.says_of_readMedia (hfield (by decide) rfl) h
      · rw [ofAttribute_strict] at h
        cases hread : Attribute.ofLine value with
        | error e =>
            rw [hread] at h
            cases h
        | ok a =>
            rw [hread] at h
            cases h
            exact .attr (hfield (by decide) rfl) hread
      · next hv ho hs hc ht hm ha =>
          cases h
          refine .nothing fun letter hletter value' hfield' => ?_
          have heq := hcut.symm.trans ((isField_iff (ne_equals_of_mem hletter)).mp hfield')
          obtain ⟨rfl, rfl⟩ := Prod.mk.inj (Option.some.inj heq)
          simp [fieldLetters] at hletter
          simp_all

theorem ofLine_of_says (h : Says line item) : (ofLine .strict line).item = .ok item := by
  cases h with
  | version field | origin field | name field | timing field =>
      rw [ofLine, (isField_iff (by decide)).mp field]
      rfl
  | connection field tokens internet known =>
      rw [ofLine, (isField_iff (by decide)).mp field]
      exact Item.readConnection_of_words tokens internet known
  | media field tokens formats_ne_nil digits bound =>
      rw [ofLine, (isField_iff (by decide)).mp field]
      exact Item.readMedia_of_words tokens formats_ne_nil (readPort?_eq_some_iff.mpr ⟨digits, bound⟩)
  | attr field read =>
      rw [ofLine, (isField_iff (by decide)).mp field]
      calc (ofAttribute .strict _).item = toItem (Attribute.ofLine _) := by rw [ofAttribute_strict]
        _ = .ok (.attr _) := by rw [read, toItem]
  | nothing h =>
      rw [ofLine]
      split
      · rfl
      · next field value hcut =>
          have hne {letter : Char} (hl : letter ∈ fieldLetters) (he : field = [letter]) : False :=
            h letter hl value ((isField_iff (ne_equals_of_mem hl)).mpr (he ▸ hcut))
          split
          -- Any letter of a field is excluded.
          case h_8 => rfl
          all_goals exact (hne (by decide) rfl).elim

/-- A strict reader takes a line for just what it says. -/
theorem ofLine_eq_ok_iff : (ofLine .strict line).item = .ok item ↔ Says line item :=
  ⟨says_of_ofLine, ofLine_of_says⟩

/-- A reader says of a line what is said by what it hears of it. -/
theorem item_ofLine_eq_ok_iff (mode : Mode) :
    (ofLine mode line).item = .ok item ↔ Says (heard mode line) item := by
  rw [← ofLine_eq_ok_iff]
  cases mode with
  | strict => rfl
  | lenient => rw [heard, ofLine_sanitiseLine]

end LineReading

/-- A line says one thing only. -/
theorem Says.unique {line : List Char} {i j : Item} (hi : Says line i) (hj : Says line j) : i = j :=
  Except.ok.inj ((LineReading.ofLine_of_says hi).symm.trans (LineReading.ofLine_of_says hj))

end Sdp
