import Sdp.Proofs.Attribute.Display
import Sdp.Proofs.Session.Diagnostics
import Sdp.Proofs.Session.Routing
import Sdp.Session.Shown

/-!
# Summaries keep to their lines

Main statements: `Session.isShown_overview`, a summary has a line for everything in the session, and
`Failure.isPrintable_of_mem_report`.
-/

namespace Sdp

open Text (IsUnbroken IsWord isBlank isLineEnd isPrintable quote words)

namespace Text

/-! ## Lines -/

theorem isLineEnd_of_isPrintable {c : Char} (h : isPrintable c) : isLineEnd c = false := by
  have hends : ∀ n ∈ [0x0A, 0x0B, 0x0C, 0x0D, 0x1C, 0x1D, 0x1E, 0x85, 0x2028, 0x2029],
      unprintableRanges.any fun range => range.1 ≤ n && n ≤ range.2 := by decide +kernel
  cases hend : isLineEnd c with
  | false => rfl
  | true =>
      have hmem : c.toNat ∈ [0x0A, 0x0B, 0x0C, 0x0D, 0x1C, 0x1D, 0x1E, 0x85, 0x2028, 0x2029] := by
        simp only [isLineEnd, Bool.or_eq_true, Bool.and_eq_true, decide_eq_true_eq, beq_iff_eq] at hend
        simp only [List.mem_cons, List.not_mem_nil, or_false]
        omega
      rw [isPrintable, hends _ hmem] at h
      cases h

theorem isUnbroken_of_printable {s : List Char} (h : ∀ c ∈ s, isPrintable c) : IsUnbroken s :=
  fun c hc => isLineEnd_of_isPrintable (h c hc)

theorem isUnbroken_of_isWord {w : List Char} (h : IsWord w) : IsUnbroken w :=
  fun c hc => isLineEnd_of_not_isBlank (h.2 c hc)

theorem isUnbroken_append {s t : List Char} : IsUnbroken (s ++ t) ↔ IsUnbroken s ∧ IsUnbroken t :=
  List.forall_mem_append

theorem lines_printed {ls : List (List Char)} (h : ∀ l ∈ ls, IsUnbroken l) : lines (printed ls) = ls := by
  induction ls with
  | nil => rfl
  | cons l ls ih =>
      obtain ⟨hl, hls⟩ := List.forall_mem_cons.mp h
      rw [printed, List.flatMap_cons, List.append_assoc, List.singleton_append, lines_append_lineEnd hl]
      exact congrArg _ (ih hls)

theorem behind?_append {mark : Char} {s : List Char} (h : mark ∉ s) (n : Nat) (rest : List Char) :
    behind? mark (n + 1) (s ++ mark :: rest) = behind? mark n rest := by
  rw [behind?, cut_append h]
  rfl

theorem behind?_eq_none {mark : Char} {s : List Char} (h : mark ∉ s) (n : Nat) :
    behind? mark (n + 1) s = none := by
  rw [behind?, cut_eq_none_iff.mpr h]
  rfl

end Text

/-! ## Wordings -/

theorem Quantity.isPrintable_of_mem_name (q : Quantity) : ∀ c ∈ q.name.toList, isPrintable c :=
  Text.forall_isPrintable_of_ascii (by cases q <;> decide)

theorem Kind.isPrintable_of_mem_title (k : Kind) : ∀ c ∈ k.title.toList, isPrintable c := by
  intro c hc
  obtain ⟨-, hlow, hhigh⟩ := k.char_of_mem_title c hc
  exact Text.isPrintable_of_ascii hlow hhigh

theorem Network.Refusal.isPrintable_of_mem_message (r : Refusal) : ∀ c ∈ r.message.toList, isPrintable c :=
  Text.forall_isPrintable_of_ascii (by cases r <;> decide)

theorem Shape.isPrintable_of_mem_message (s : Shape) : ∀ c ∈ s.message.toList, isPrintable c :=
  Text.forall_isPrintable_of_ascii (by cases s <;> decide)

theorem Keyword.isPrintable_of_mem_message (k : Keyword) : ∀ c ∈ k.message.toList, isPrintable c :=
  Text.forall_isPrintable_of_ascii (by cases k <;> decide)

theorem Defect.isPrintable_of_mem_message (d : Defect) : ∀ c ∈ d.message.toList, isPrintable c := by
  cases d with
  | unknownAttribute => exact Text.forall_isPrintable_of_ascii (by decide)
  | unknownExtension => exact Text.forall_isPrintable_of_ascii (by decide)
  | flagWithValue f =>
      rw [message, String.toList_append, List.forall_mem_append]
      exact ⟨Kind.isPrintable_of_mem_title _, Text.forall_isPrintable_of_ascii (by decide)⟩
  | number q d =>
      cases d <;> rw [message, String.toList_append, List.forall_mem_append] <;>
        exact ⟨q.isPrintable_of_mem_name, Text.forall_isPrintable_of_ascii (by decide)⟩
  | tokens s => exact s.isPrintable_of_mem_message
  | keyword k => exact k.isPrintable_of_mem_message
  | network r => exact r.isPrintable_of_mem_message

theorem Problem.isPrintable_of_mem_message (p : Problem) : ∀ c ∈ p.message.toList, isPrintable c := by
  cases p with
  | network r => exact r.isPrintable_of_mem_message
  | defect d => exact d.isPrintable_of_mem_message
  | _ => exact Text.forall_isPrintable_of_ascii (by decide)

/-- A report is printable if its wording is: the text is quoted. -/
theorem isPrintable_of_mem_report {message : String} (h : ∀ c ∈ message.toList, isPrintable c)
    (line : Option Nat) (text : String) : ∀ c ∈ report line message text, isPrintable c := by
  unfold report
  refine List.forall_mem_append.mpr ⟨List.forall_mem_append.mpr ⟨?_, h⟩, ?_⟩
  · cases line with
    | none => exact List.forall_mem_nil _
    | some n =>
        simp only [List.forall_mem_append]
        exact ⟨⟨Text.forall_isPrintable_of_ascii (by decide), Text.isPrintable_of_mem_decimal n⟩,
          Text.forall_isPrintable_of_ascii (by decide)⟩
  · split
    · exact List.forall_mem_nil _
    · have hmarks : ∀ c ∈ [':', ' '], isPrintable c := Text.forall_isPrintable_of_ascii (by decide)
      exact List.forall_mem_append.mpr ⟨hmarks, fun c hc => Text.isPrintable_of_mem_quote hc⟩

theorem Failure.isPrintable_of_mem_report (f : Failure) : ∀ c ∈ f.report, isPrintable c :=
  Sdp.isPrintable_of_mem_report f.fault.cause.isPrintable_of_mem_message _ _

/-! ## Warnings -/

/-- Only what is unknown is skipped. -/
theorem LineReading.isUnsupported_of_mem_skipped {mode : Mode} {line : List Char} {e : Fault Defect}
    (h : e ∈ (ofLine mode line).skipped) : e.cause.isUnsupported := by
  cases htext : attributeText? line with
  | none =>
      rw [ofLine_of_attributeText_none htext] at h
      cases h
  | some text =>
      rw [ofLine_of_attributeText htext] at h
      cases mode with
      | strict =>
          rw [ofAttribute_strict] at h
          cases h
      | lenient =>
          rw [ofAttribute_lenient, unknownBeforeRefused] at h
          dsimp only at h
          split at h
          · rw [List.mem_singleton.mp h]
            rfl
          · split at h
            · obtain ⟨name, -, rfl⟩ := List.mem_map.mp h
              rfl
            · cases h
          · cases h

theorem Defect.colon_not_mem_message {d : Defect} (h : d.isUnsupported) : ':' ∉ d.message.toList := by
  cases d with
  | unknownAttribute => decide
  | unknownExtension => decide
  | _ => cases h

namespace Warning

variable {w : Warning}

theorem warning_report_eq (w : Warning) :
    "warning: ".toList ++ w.report = "warning: line ".toList ++ Numeral.decimal w.line ++ ": ".toList ++
      w.fault.cause.message.toList ++
      if w.fault.text = "" then [] else ": ".toList ++ quote w.fault.text.toList := by
  unfold Warning.report Sdp.report
  by_cases htext : w.fault.text = ""
  · simp [htext]
  · simp [htext]

/-- Neither the number of a line nor what is wrong there has a colon. -/
theorem behind?_third_colon {message : List Char} (h : ':' ∉ message) (n : Nat) (tail : List Char) :
    Text.behind? ':' 3 ("warning: line ".toList ++ Numeral.decimal n ++ ": ".toList ++ message ++ ':' :: tail) =
      some tail ∧
    Text.behind? ':' 3 ("warning: line ".toList ++ Numeral.decimal n ++ ": ".toList ++ message) = none := by
  have hword : ':' ∉ "warning".toList := by decide
  have hnumber : ':' ∉ " line ".toList ++ Numeral.decimal n := by
    rw [List.mem_append, not_or]
    exact ⟨by decide, Numeral.not_mem_decimal (by decide) n⟩
  have hmessage : ':' ∉ ' ' :: message := by
    rw [List.mem_cons, not_or]
    exact ⟨by decide, h⟩
  have hsplit (rest : List Char) : "warning: line ".toList ++ Numeral.decimal n ++ ": ".toList ++ message ++ rest =
      "warning".toList ++ ':' :: ((" line ".toList ++ Numeral.decimal n) ++ ':' :: ((' ' :: message) ++ rest)) := by
    simp
  constructor
  · rw [hsplit, Text.behind?_append hword, Text.behind?_append hnumber, Text.behind?_append hmessage,
      Text.behind?]
  · rw [← List.append_nil (_ ++ message), hsplit, Text.behind?_append hword, Text.behind?_append hnumber,
      List.append_nil, Text.behind?_eq_none hmessage]

theorem shownText?_report (h : w.fault.cause.isUnsupported) :
    shownText? ("warning: ".toList ++ w.report) = some w.fault.text.toList := by
  obtain ⟨hquoted, hplain⟩ :=
    behind?_third_colon (Defect.colon_not_mem_message h) w.line (' ' :: quote w.fault.text.toList)
  rw [warning_report_eq, shownText?]
  by_cases htext : w.fault.text = ""
  · rw [if_pos htext, List.append_nil, hplain, htext]
    rfl
  · have hcolon : ": ".toList ++ quote w.fault.text.toList = ':' :: ' ' :: quote w.fault.text.toList := rfl
    rw [if_neg htext, hcolon, hquoted]
    exact Text.unquote_quote _

theorem isShown_report (h : w.fault.cause.isUnsupported) : w.IsShown ("warning: ".toList ++ w.report) where
  text := warning_report_eq w
  printable := List.forall_mem_append.mpr ⟨Text.forall_isPrintable_of_ascii (by decide),
    isPrintable_of_mem_report w.fault.cause.isPrintable_of_mem_message _ _⟩
  recovered := shownText?_report h

end Warning

/-! ## Sessions -/

theorem isPrintable_of_mem_titles (attributes : List Attribute) : ∀ c ∈ titles attributes, isPrintable c := by
  intro c hc
  unfold titles at hc
  split at hc
  · exact Text.forall_isPrintable_of_ascii (by decide) c hc
  · rcases Text.mem_intercalate hc with hc | ⟨t, ht, hc⟩
    · exact Text.forall_isPrintable_of_ascii (by decide) c hc
    · obtain ⟨a, -, rfl⟩ := List.mem_map.mp ht
      exact a.kind.isPrintable_of_mem_title c hc

/-- Type and protocol are shown as they are, and no word ends a line. -/
theorem Media.isUnbroken_headline {m : Media} (htype : IsWord m.type.toList)
    (hprotocol : IsWord m.protocol.toList) : IsUnbroken m.headline := by
  have hsplit : m.headline = "m=".toList ++ m.type.toList ++ " ".toList ++ Numeral.decimal m.port ++ " ".toList ++
      m.protocol.toList ++ ": ".toList ++ titles m.attributes := by
    simp [headline]
  have hmark (t : String) (h : t.toList.all fun c => 0x20 ≤ c.toNat && c.toNat ≤ 0x7E) : IsUnbroken t.toList :=
    Text.isUnbroken_of_printable (Text.forall_isPrintable_of_ascii h)
  simp only [hsplit, Text.isUnbroken_append, and_assoc]
  exact ⟨hmark "m=" (by decide), Text.isUnbroken_of_isWord htype, hmark " " (by decide),
    Text.isUnbroken_of_printable (Text.isPrintable_of_mem_decimal _), hmark " " (by decide),
    Text.isUnbroken_of_isWord hprotocol, hmark ": " (by decide),
    Text.isUnbroken_of_printable (isPrintable_of_mem_titles _)⟩

namespace Session

variable {policy : Policy} {text : List Char} {s : Session}

theorem readLines_of_read (h : (read policy text).2 = .ok s) :
    (readLines policy {} 1 (Text.lines text)).2 = .ok s := by
  unfold read at h
  split at h
  · cases h
  · exact h

theorem isWord_of_says_media {line : List Char} {m : Media} (h : Says line (.media m)) :
    IsWord m.type.toList ∧ IsWord m.protocol.toList := by
  cases h with
  | @media value type port protocol formats n field tokens _ _ _ =>
      have hword := Text.forall_of_words_eq tokens
      rw [String.toList_ofList, String.toList_ofList]
      exact ⟨(hword type (by simp)).1, (hword protocol (by simp)).1⟩

/-- What a media description says about itself are words of its line. -/
theorem isWord_of_mem_media (h : (read policy text).2 = .ok s) {m : Media} (hm : m ∈ s.media) :
    IsWord m.type.toList ∧ IsWord m.protocol.toList := by
  obtain ⟨items, hsays, hfold⟩ := readLines_items (Prod.ext rfl (readLines_of_read h))
  rw [← List.forall₂_map_left_iff] at hsays
  have hitems := exists_says_of_mem hsays
  rw [(collects_of_foldl hitems hfold).media] at hm
  obtain ⟨part, hpart, rfl⟩ := List.mem_map.mp hm
  obtain ⟨line, hline⟩ := hitems _ (mem_of_mem_sections hpart).1
  -- What a section adds to its media description is neither the type nor the protocol.
  obtain ⟨htype, hprotocol⟩ := isWord_of_says_media hline
  exact ⟨htype, hprotocol⟩

theorem isUnsupported_of_mem_warnings (h : (read policy text).2 = .ok s) {w : Warning}
    (hw : w ∈ s.warnings) : w.fault.cause.isUnsupported := by
  obtain ⟨-, -, hwarnings⟩ := readLines_ok (Prod.ext rfl (readLines_of_read h))
  rw [hwarnings, List.nil_append] at hw
  obtain ⟨_, _, _, -, -, hskipped⟩ := mem_skippedFrom_iff.mp (List.mem_of_mem_take hw)
  exact LineReading.isUnsupported_of_mem_skipped hskipped

theorem isUnbroken_of_mem_overview (h : (read policy text).2 = .ok s) :
    ∀ line ∈ s.overview, IsUnbroken line := by
  have hsession : IsUnbroken ("session: ".toList ++ titles s.attributes) :=
    Text.isUnbroken_append.mpr
      ⟨Text.isUnbroken_of_printable (Text.forall_isPrintable_of_ascii (by decide)),
        Text.isUnbroken_of_printable (isPrintable_of_mem_titles _)⟩
  rw [overview]
  refine List.forall_mem_append.mpr
    ⟨List.forall_mem_cons.mpr ⟨hsession, fun line hline => ?_⟩, fun line hline => ?_⟩
  · obtain ⟨m, hm, rfl⟩ := List.mem_map.mp hline
    obtain ⟨htype, hprotocol⟩ := isWord_of_mem_media h hm
    exact Media.isUnbroken_headline htype hprotocol
  · obtain ⟨w, hw, rfl⟩ := List.mem_map.mp hline
    exact Text.isUnbroken_of_printable (Warning.isShown_report (isUnsupported_of_mem_warnings h hw)).printable

theorem isShown_overview (h : (read policy text).2 = .ok s) : s.IsShown s.overview where
  length := by
    rw [overview, List.length_append, List.length_cons, List.length_map, List.length_map]
    omega
  session := rfl
  media i m hm := by
    have hlt : i < s.media.length := (List.getElem?_eq_some_iff.mp hm).1
    rw [overview, List.getElem?_append_left (by simp; omega), Nat.add_comm, List.getElem?_cons_succ,
      List.getElem?_map, hm]
    rfl
  warnings i w hw := by
    refine ⟨_, ?_, Warning.isShown_report (isUnsupported_of_mem_warnings h (List.mem_of_getElem? hw))⟩
    rw [overview, List.getElem?_append_right (by simp; omega), List.getElem?_map]
    simp only [List.length_cons, List.length_map]
    rw [show 1 + s.media.length + i - (s.media.length + 1) = i by omega, hw]
    rfl
  unbroken := isUnbroken_of_mem_overview h

end Session

end Sdp
